import Provisioning.Model.Calls

/-!
# What the operations on a subscription leave alone

The streams and consumers of the subscriptions and those of the provisioning stack are named by the
same functions, from strings that nobody validates. The functions are injective, so two
subscriptions never meet; but a subscription may be given the name of an internal queue, and then
its stream is that queue. Or its name may not fit into a line of the protocol of NATS: then nobody
says what the server reads there, and the frame is not to be had from what is documented.

A consumer also acknowledges messages, and NATS takes the acknowledgement of any message from
anyone. That none strays to another stream is seen from the program: it acknowledges what it was
handed, and what it was handed came from the stream it asked.

## The frame

All operations on the subscription together leave a foreign stream what it was, except that they may
put requests of this subscription at the end of the prefill queue. `LeftAlone` is an inductive
relation and not an equation with a list of requests: each request is one step of it, so a call
extends it by at most one constructor, and there is no list to be split.

## Two layers

Whether a call keeps to the subscription is asked of the call (`Spares`), by what it may change in
any state. Whether a program makes only such calls is asked of the program (`KeepsTo`), under the
assumption that NATS delivers what it was asked for. Runs come last, and all that is left for them
is one step.

## Servers

The client writes names into the lines of a text protocol, unquoted. The theorem quantifies over all
servers that do as documented with calls that fit into a line, and asks nothing of them for other
calls. So a name that is broken is refuted by a server that does the worst, and this is how the
condition comes out as necessary.
-/

namespace Provisioning

open Await Store Prog

/-! ## The frame -/

/-- The queues between the services. -/
def internalQueues : List String :=
  [DISPATCHER_STREAM, PREFILL_STREAM, PREFILL_FAILURES_STREAM, LDAP_STREAM, LDIF_STREAM]

/-- The operations on the subscription of this name. No route takes an empty one. -/
def Job.About (name : String) : Job → Prop
  | .create _ subscription => subscription.name = name
  | .delete _ _ _ n => n = name ∧ n ≠ ""
  | .deleteService n => n = name
  | .getNext n _ _ => n = name
  | .postStatus n _ _ => n = name
  | .idle => True
  | _ => False

/-- The streams that are not the subscription's own: those of other subscriptions, and the
internal ones. -/
def Foreign (name x : String) : Prop :=
  x ≠ streamKey name ∨ ∃ queue ∈ internalQueues, x = streamKey queue

/-- **A stream is left alone**: its messages, its configuration and its consumers are what they
were, but for requests of the subscription at the end of the prefill queue. -/
inductive LeftAlone (name x : String) (s : Option (Store.Stream Payload)) :
    Option (Store.Stream Payload) → Prop where
  | same : LeftAlone name x s s
  | request {t : Store.Stream Payload} (tid : Nat) (r : PrefillMessage)
      (h : LeftAlone name x s (some t)) (hx : x = streamKey PREFILL_STREAM)
      (hr : r.subscriptionName = name) :
      LeftAlone name x s (some (t.append PREFILL_STREAM (.prefill r) tid))

/-- All foreign streams are as they were in `w`. -/
def Frame (name : String) (w : World) (c : System) : Prop :=
  ∀ x, Foreign name x → LeftAlone name x (w.streams x) (c.world.streams x)

/-- A stream that is left alone stays, with its messages. -/
theorem LeftAlone.mem {name x : String} {s s' : Option (Store.Stream Payload)}
    (h : LeftAlone name x s s') {t : Store.Stream Payload} (hs : s = some t) {m : Stored Payload}
    (hm : m ∈ t.msgs) : ∃ t', s' = some t' ∧ m ∈ t'.msgs := by
  induction h with
  | same => exact ⟨t, hs, hm⟩
  | request tid r h hx hr ih =>
    obtain ⟨t', ht', hm'⟩ := ih
    cases ht'
    exact ⟨_, rfl, List.mem_append_left _ hm'⟩

/-! ## Names that fit into a line -/

/-- NATS reads the string as one argument: there is no blank in it, and no line break. -/
def Unbroken (s : String) : Prop := ∀ c ∈ [' ', '\t', '\r', '\n'], c ∉ s.toList

instance (s : String) : Decidable (Unbroken s) := List.decidableBAll _ _

/-- The names that the client writes into a line. What it acknowledges has arrived in one. -/
def Op.names : Op → List String
  | .kvGet _ key => [key]
  | .kvPut _ key _ => [key]
  | .kvDelete _ key => [key]
  | .streamInfo stream => [stream]
  | .addStream config => [config.name]
  | .updateStream config => [config.name]
  | .deleteStream stream => [stream]
  | .consumerInfo stream durable => [stream, durable]
  | .addConsumer stream durable => [stream, durable]
  | .deleteConsumer stream durable => [stream, durable]
  | .publish subject _ stream => [subject, stream]
  | .pullSubscribe _ durable stream => [stream, durable]
  | .fetch stream durable => [stream, durable]
  | .getMsg stream _ => [stream]
  | .deleteMsg stream _ => [stream]
  | .purgeStream stream subject => [stream, subject]
  | _ => []

def Op.FitsLine (op : Op) : Prop := ∀ s ∈ op.names, Unbroken s

instance (op : Op) : Decidable op.FitsLine := List.decidableBAll _ _

abbrev NatsServer : Type := Server Op Op.Res CallError Outage World

/-- The server does as documented with the calls that fit into a line. With others it may do
anything. -/
structure Documented (env : Env) (S : NatsServer) : Prop where
  answer : ∀ tid op w, op.FitsLine → S.answer tid op w = Provisioning.answer env tid op w
  lost : S.lost = Outage.error

section Documented

variable {env : Env} {S : NatsServer} {tid : Nat} {op : Op} {w : World} {f : Fault Outage}

theorem documented_serve (env : Env) : Documented env (serve env) := ⟨fun _ _ _ _ => rfl, rfl⟩

theorem Documented.heard (h : Documented env S) (hop : op.FitsLine) :
    S.heard tid op w f = (serve env).heard tid op w f := by
  cases f with
  | ok => exact congrArg Prod.fst (h.answer tid op w hop)
  | before e => exact congrArg Except.error (congrFun h.lost e)
  | after e => exact congrArg Except.error (congrFun h.lost e)

theorem Documented.left (h : Documented env S) (hop : op.FitsLine) :
    S.left tid op w f = (serve env).left tid op w f := by
  cases f with
  | ok => exact congrArg Prod.snd (h.answer tid op w hop)
  | before e => rfl
  | after e => exact congrArg Prod.snd (h.answer tid op w hop)

end Documented

/-- The functions that make the names put something in front. -/
theorem unbroken_append {s t : String} : Unbroken (s ++ t) ↔ Unbroken s ∧ Unbroken t := by
  simp only [Unbroken, String.toList_append, List.mem_append, not_or]
  exact ⟨fun h => ⟨fun c hc => (h c hc).1, fun c hc => (h c hc).2⟩,
    fun h c hc => ⟨h.1 c hc, h.2 c hc⟩⟩

section Names

variable {name : String} (h : Unbroken name)

include h

theorem unbroken_streamKey : Unbroken (streamKey name) := unbroken_append.mpr ⟨by decide, h⟩

theorem unbroken_durableKey : Unbroken (durableKey name) := unbroken_append.mpr ⟨by decide, h⟩

theorem unbroken_keys : ∀ s ∈ [streamKey name, durableKey name], Unbroken s := by
  intro s hs
  rcases List.mem_cons.mp hs with rfl | hs
  · exact unbroken_streamKey h
  · exact List.mem_singleton.mp hs ▸ unbroken_durableKey h

/-- Every kind of call names the subscription, its stream or its consumer, or something fixed. -/
theorem fitsLine_create {sub : NewSubscription} (hname : sub.name = name) {op : Op}
    (hop : CreateCall sub op) : op.FitsLine := by
  subst hname
  cases hop with
  | get | putHash | putRecord => exact List.forall_mem_singleton.mpr h
  | streamInfo | addStream | updateStream =>
    exact List.forall_mem_singleton.mpr (unbroken_streamKey h)
  | consumerInfo | addConsumer => exact unbroken_keys h
  | publish =>
    have hqueue : ∀ s ∈ [PREFILL_STREAM, streamKey PREFILL_STREAM], Unbroken s := by decide
    exact hqueue

theorem fitsLine_delete {op : Op} (hop : DeleteCall name op) : op.FitsLine := by
  cases hop with
  | get | dropHash | dropRecord => exact List.forall_mem_singleton.mpr h
  | deleteStream => exact List.forall_mem_singleton.mpr (unbroken_streamKey h)
  | deleteConsumer => exact unbroken_keys h

theorem fitsLine_auth {op : Op} (hop : AuthCall name op) : op.FitsLine := by
  cases hop with
  | get | putHash => exact List.forall_mem_singleton.mpr h
  | verify | pop => exact nofun

theorem fitsLine_post {seqNum : Nat} {op : Op} (hop : PostCall name seqNum op) :
    op.FitsLine := by
  cases hop <;> exact List.forall_mem_singleton.mpr (unbroken_streamKey h)

theorem fitsLine_next {op : Op} (hop : NextCall name op) : op.FitsLine := by
  cases hop with
  | flagGet | flagSet => exact nofun
  | status => exact List.forall_mem_singleton.mpr h
  | message hop =>
    cases hop with
    | streamInfo => exact List.forall_mem_singleton.mpr (unbroken_streamKey h)
    | consumerInfo | subscribe | fetch => exact unbroken_keys h
    | ack => exact nofun

/-- A request to delete authenticates either the administrator, or a user of the name it is about:
any other one is refused before anything is looked up. -/
theorem fitsLine_deleteRoute {settings : AppSettings} {salt : String}
    {credentials : HTTPBasicCredentials} (hname : name ≠ "") :
    (deleteSubscriptionRoute settings salt credentials name).Uses Op.FitsLine := by
  have hdelete : ((orNotFound (deleteSubscription name)).bind fun _ => Prog.pure 200).Uses
      Op.FitsLine :=
    Uses.bind (Uses.orNotFound ((uses_deleteSubscription name).mono fun _ => fitsLine_delete h))
      fun _ => trivial
  unfold deleteSubscriptionRoute
  split
  · refine Uses.bind ?_ fun _ => hdelete
    by_cases hother : name ≠ credentials.username
    · unfold authenticateUser
      simp only [Option.any_some, bne_iff_ne, ne_eq, hname, hother, not_false_eq_true,
        Bool.and_eq_true, and_self, if_true]
      trivial
    · obtain rfl := not_not.mp hother
      exact (uses_authenticateUser ..).mono fun _ => fitsLine_auth h
  · exact hdelete

/-- **The calls for a name that fits into a line fit into a line.** -/
theorem fitsLine_job {env : Env} {job : Job} (hjob : job.About name) :
    (job.program env).Uses Op.FitsLine := by
  cases job with
  | create salt sub => exact (uses_program env _).mono fun _ => fitsLine_create h hjob
  | delete settings salt credentials n =>
    obtain ⟨rfl, hne⟩ := hjob
    exact Uses.bind (fitsLine_deleteRoute h hne) fun _ => trivial
  | deleteService n =>
    cases hjob
    exact (uses_program env _).mono fun _ => fitsLine_delete h
  | getNext n rounds pop =>
    cases hjob
    exact (uses_program env _).mono fun _ => fitsLine_next h
  | postStatus n seqNum status =>
    cases hjob
    exact (uses_program env _).mono fun _ => fitsLine_post h
  | idle => trivial
  | _ => exact absurd hjob id

end Names

/-! ## Calls that keep to the subscription's own stream -/

variable {env : Env} {name : String}

/-- The call changes no stream but the subscription's own, and requests its prefill at most. -/
def Spares (name : String) (op : Op) : Prop :=
  ∀ tid x s s', StreamChange tid x op s s' → x = streamKey name ∨
    ∃ r t, op = .publish PREFILL_STREAM (.prefill r) x ∧ x = streamKey PREFILL_STREAM ∧
      r.subscriptionName = name ∧ s = some t ∧ s' = some (t.append PREFILL_STREAM (.prefill r) tid)

/-- What is handed out comes from another stream than the one that was asked. -/
def Misdelivered : (op : Op) → Except CallError op.Res → Prop
  | .fetch stream _, .ok msg => msg.stream ≠ stream
  | _, _ => False

/-- NATS does no such thing. -/
theorem not_misdelivered (tid : Nat) (op : Op) (w : World) (f : Fault Outage) :
    ¬ Misdelivered op ((serve env).heard tid op w f) := by
  intro h
  have hlost : ∀ e, ¬ Misdelivered op (.error e) := by
    intro e herror
    cases op <;> exact herror
  have hans : Misdelivered op (answer env tid op w).1 := (Server.heard_answered hlost h).2
  cases op with
  | fetch stream durable =>
    revert hans
    simp only [answer]
    intro hans
    split at hans
    · exact hans
    · split at hans
      · exact hans
      · split at hans
        · exact hans
        · exact hans rfl
  | _ => exact hans

/-- A program that keeps to the subscription, as far as NATS delivers what it was asked for. -/
abbrev KeepsTo (name : String) {α : Type} (R : Except Exc α → Prop) (p : Coro α) : Prop :=
  p.Guarded Misdelivered (fun op => ¬ Spares name op) R

/-- An acknowledgement concerns the stream that its message has come from… -/
theorem spares_ack {msg : Msg} (h : msg.stream = streamKey name) : Spares name (.ack msg) := by
  intro tid x s s' hchange
  cases hchange with
  | ack _ hx s d hd => exact Or.inl (hx.symm.trans h)

/-- …and all other calls the stream they name. -/
theorem spares_create {sub : NewSubscription} {op : Op} (h : CreateCall sub op) :
    Spares sub.name op := by
  intro tid x s s' hchange
  cases hchange with
  | publish subject payload s hsubject =>
    cases h
    exact Or.inr ⟨prefillRequest sub, s, rfl, rfl, rfl, rfl, rfl⟩
  | add config hx =>
    cases h
    exact Or.inl hx.symm
  | update config hx s =>
    cases h
    exact Or.inl hx.symm
  | addConsumer durable s hd =>
    cases h
    exact Or.inl rfl
  | _ => cases h

theorem spares_delete {op : Op} (h : DeleteCall name op) : Spares name op := by
  intro tid x s s' hchange
  cases h <;> cases hchange <;> exact Or.inl rfl

theorem spares_auth {username : String} {op : Op} (h : AuthCall username op) : Spares name op := by
  intro tid x s s' hchange
  cases h <;> cases hchange

theorem spares_post {seqNum : Nat} {op : Op} (h : PostCall name seqNum op) : Spares name op := by
  intro tid x s s' hchange
  cases h <;> cases hchange
  exact Or.inl rfl

/-- The calls of a consumer, the acknowledgement apart. -/
theorem spares_next {op : Op} (h : NextCall name op) (hack : ∀ msg, op ≠ .ack msg) :
    Spares name op := by
  intro tid x s s' hchange
  cases h with
  | message h =>
    cases h with
    | ack msg => exact absurd rfl (hack msg)
    | fetch =>
      cases hchange
      exact Or.inl rfl
    | _ => cases hchange
  | _ => cases hchange

/-- A program all of whose calls spare the others. -/
theorem keepsTo_of_uses {α : Type} {P : Op → Prop} {p : Coro α} (hp : p.Uses P)
    (h : ∀ op, P op → Spares name op) : KeepsTo name (fun _ => False) p :=
  hp.guarded fun op hop hnot => hnot (h op hop)

/-- A poll acknowledges no message but the one it was handed. -/
theorem keepsTo_getMessage (subject : String) (pop : Bool) :
    KeepsTo name (fun _ => False) (getMessage name subject pop) := by
  have hcall : ∀ {op : Op}, NextCall name op → (∀ msg, op ≠ .ack msg) →
      KeepsTo name (fun _ => False) (request op) := fun h hack =>
    keepsTo_of_uses (uses_request (P := (· = _)) rfl) fun op hop => hop ▸ spares_next h hack
  have hfound : KeepsTo name (fun _ => False) (catching .notFound (do
      request (.streamInfo (streamKey name)); return true) (return false)) :=
    keepsTo_of_uses (Uses.catching (Uses.bind (uses_request (P := (· = _)) rfl) fun _ => trivial)
      trivial) fun op hop => hop ▸ spares_next (.message .streamInfo) nofun
  -- Fetching: if a message is returned, it is one of the subscription's stream.
  have hfetch : KeepsTo name
      (fun r => ∃ msg : Msg, r = .ok (some msg) ∧ msg.stream ≠ streamKey name)
      (catching .timeout (do
        let msg ← request (.fetch (streamKey name) (durableKey name))
        return some msg) (return none)) := by
    refine ⟨fun hnot => hnot (spares_next (.message .fetch) nofun), fun r hr => ?_⟩
    cases r with
    | ok msg =>
      intro hreturned
      obtain ⟨msg', heq, hne⟩ := hreturned
      cases heq
      exact hr hne
    | error x =>
      by_cases hx : x = .timeout
      · subst hx
        simp
      · simp [hx]
  refine hfound.bind (fun found _ => ?_) nofun
  cases found with
  | false => exact id
  | true =>
    refine (hcall (.message .consumerInfo) nofun).bind (fun _ _ => ?_) nofun
    refine (hcall (.message (.subscribe subject)) nofun).bind (fun _ _ => ?_) nofun
    refine hfetch.bind (fun msg? hmsg => ?_) nofun
    cases msg? with
    | none => exact id
    | some msg =>
      have hstream : msg.stream = streamKey name := by
        by_contra hne
        exact hmsg ⟨msg, rfl, hne⟩
      have hreturn : KeepsTo name (fun _ => False)
          ((provisioningMessageFrom msg).bind fun m => Prog.pure (some m)) :=
        keepsTo_of_uses (P := fun _ => False)
          (Uses.bind (uses_provisioningMessageFrom msg) fun _ => trivial) nofun
      cases pop with
      | false => exact hreturn
      | true =>
        have hack : KeepsTo name (fun _ => False) (request (.ack msg)) :=
          keepsTo_of_uses (uses_request (P := (· = _)) rfl) fun op hop => hop ▸ spares_ack hstream
        exact hack.bind (fun _ _ => hreturn) nofun

/-- All of a poll. -/
theorem keepsTo_getNextMessage (rounds : Nat) (pop : Bool) :
    KeepsTo name (fun _ => False) (getNextMessage name rounds pop) := by
  have hcall : ∀ {op : Op}, NextCall name op → (∀ msg, op ≠ .ack msg) →
      KeepsTo name (fun _ => False) (request op) := fun h hack =>
    keepsTo_of_uses (uses_request (P := (· = _)) rfl) fun op hop => hop ▸ spares_next h hack
  refine (hcall .flagGet nofun).bind (fun flag _ => ?_) nofun
  cases flag with
  | true => exact keepsTo_getMessage _ pop
  | false =>
    have hstatus : KeepsTo name (fun _ => False) (checkSubscriptionStatus name rounds) :=
      keepsTo_of_uses (uses_checkSubscriptionStatus (P := (· = _)) name rfl rounds)
        fun op hop => hop ▸ spares_next .status nofun
    refine hstatus.bind (fun status _ => ?_) nofun
    split
    · exact id
    · refine (keepsTo_getMessage _ pop).bind (fun message _ => ?_) nofun
      cases message with
      | none => exact (hcall .flagSet nofun).bind (fun _ _ => id) nofun
      | some m => exact id

/-- **The operations on a subscription keep to it.** -/
theorem keepsTo_job {job : Job} (h : job.About name) :
    KeepsTo name (fun _ => False) (job.program env) := by
  cases job with
  | create salt sub =>
    cases h
    exact keepsTo_of_uses (uses_program env _) fun op => spares_create
  | delete settings salt credentials n =>
    obtain ⟨rfl, -⟩ := h
    apply keepsTo_of_uses (uses_program env _)
    intro op hop
    cases hop with
    | auth hop => exact spares_auth hop
    | delete hop => exact spares_delete hop
  | deleteService n =>
    cases h
    exact keepsTo_of_uses (uses_program env _) fun op => spares_delete
  | getNext n rounds pop =>
    cases h
    exact (keepsTo_getNextMessage rounds pop).bind (fun _ _ => id) nofun
  | postStatus n seqNum status =>
    cases h
    exact keepsTo_of_uses (uses_program env _) fun op => spares_post
  | idle => exact id
  | _ => exact absurd h id

/-! ## Runs -/

/-- Where the name is no internal queue's, the foreign streams are not the subscription's. -/
theorem Foreign.ne {x : String} (h : Foreign name x) (hname : name ∉ internalQueues) :
    x ≠ streamKey name := by
  rcases h with hne | ⟨queue, hqueue, rfl⟩
  · exact hne
  · intro heq
    exact hname (streamKey_inj.mp heq ▸ hqueue)

/-- One call that spares the others leaves their streams alone. -/
theorem leftAlone_answer {op : Op} (hop : Spares name op) (tid : Nat) {x : String}
    (hx : x ≠ streamKey name) {s : Option (Store.Stream Payload)} {w : World}
    (h : LeftAlone name x s (w.streams x)) :
    LeftAlone name x s ((answer env tid op w).2.streams x) := by
  rcases streams_answer env tid op w x with hsame | hchange
  · rw [hsame]
    exact h
  · rcases hop tid x _ _ hchange with hown | ⟨r, t, -, hprefill, hr, hbefore, hafter⟩
    · exact absurd hown hx
    · rw [hafter]
      rw [hbefore] at h
      exact .request tid r h hprefill hr

/-- Operations on a subscription whose name is not internal and fits into a line, in any order,
interleaved in any way and cut anywhere. -/
theorem frame_of_not_internal {S : NatsServer} (hS : Documented env S)
    (hname : name ∉ internalQueues) (hline : Unbroken name) (w : World) (jobs : Nat → Job)
    (hjobs : ∀ i, (jobs i).About name) (ls : Schedule) :
    (System.start env w jobs).Always S (Frame name w) ls := by
  have hstep : ∀ (c : System) l d,
      (∀ i, (c.prog i).Uses Op.FitsLine) ∧ (∀ i, KeepsTo name (fun _ => False) (c.prog i)) ∧
        Frame name w c → True → c.step S l = some d →
      (∀ i, (d.prog i).Uses Op.FitsLine) ∧ (∀ i, KeepsTo name (fun _ => False) (d.prog i)) ∧
        Frame name w d := by
    intro c l d hc _ hs
    obtain ⟨hfits, hkeeps, hframe⟩ := hc
    refine ⟨Config.step_uses hfits hs, ?_⟩
    obtain ⟨op, k, hp, rfl⟩ := Config.step_cases hs
    have hop : op.FitsLine := (hfits l.1).of_next? (next?_of_await hp)
    have hspares : Spares name op := not_not.mp (hp ▸ hkeeps l.1 : KeepsTo name _ (.await op k)).1
    refine ⟨Config.guarded_next hkeeps hp ?_, fun x hx => ?_⟩
    · rw [hS.heard hop]
      exact not_misdelivered l.1 op c.world l.2
    · rw [Config.next_world, hS.left hop]
      exact Server.left_preserves
        (P := fun w' : World => LeftAlone name x (w.streams x) (w'.streams x))
        (hframe x hx) fun _ => leftAlone_answer hspares l.1 (hx.ne hname) (hframe x hx)
  have hstart : Frame name w (System.start env w jobs) := fun x _ => .same
  have halways := Config.always_of_invariant (C := fun _ _ => True) hstep
    ⟨fun i => fitsLine_job hline (hjobs i), fun i => keepsTo_job (hjobs i), hstart⟩
    (Config.along_trivial ls)
  exact halways.mono fun c hc => hc.2.2

/-- The queue of an internal name, holding one message. -/
def World.oneMessage (queue : String) : World :=
  World.empty.setStream (streamKey queue)
    (some ((Store.Stream.new [queue] true).append queue (.message .sample) 0))

/-- A foreign stream that loses its message, or is lost itself, is not left alone. -/
theorem not_frame {queue : String} {d : System} (hqueue : queue ∈ internalQueues)
    (hlost : (d.world.streams (streamKey queue)).all (·.msgs.isEmpty) = true) :
    ¬ Frame name (.oneMessage queue) d := by
  intro hframe
  have hbefore := World.streams_setStream_self .empty (streamKey queue)
    (some ((Store.Stream.new [queue] true).append queue (.message .sample) 0))
  obtain ⟨t, ht, hm⟩ := (hframe _ (Or.inr ⟨queue, hqueue, rfl⟩)).mem hbefore
    (List.mem_append_right _ List.mem_cons_self)
  rw [ht] at hlost
  rw [List.isEmpty_iff.mp hlost] at hm
  cases hm

/-- The consumer of a subscription named like an internal queue acknowledges a message of it. -/
theorem not_frame_of_internal (hname : name ∈ internalQueues) :
    ¬ (System.start .sample (.oneMessage name) (Job.pool [.postStatus name 1 .ok])).Always
      (serve .sample) (Frame name (.oneMessage name)) [(0, .ok), (0, .ok)] := by
  intro h
  obtain ⟨d, hrun, hlost⟩ : ∃ d,
      (System.start .sample (.oneMessage name) (Job.pool [.postStatus name 1 .ok])).run
        (serve .sample) [(0, .ok), (0, .ok)] = some d ∧
      (d.world.streams (streamKey name)).all (·.msgs.isEmpty) = true := by
    simp only [internalQueues, List.mem_cons, List.not_mem_nil, or_false] at hname
    rcases hname with rfl | rfl | rfl | rfl | rfl <;> exact ⟨_, rfl, rfl⟩
  exact not_frame hname hlost (h.run hrun)

/-- A server that loses everything over a call that does not fit into a line. -/
def losesAll (env : Env) : NatsServer where
  answer tid op w := if op.FitsLine then answer env tid op w else (.error .connection, .empty)
  lost := Outage.error

theorem documented_losesAll (env : Env) : Documented env (losesAll env) :=
  ⟨fun _ _ _ h => if_pos h, rfl⟩

/-- Already the lookup of a record under a name that is broken may end badly. -/
theorem not_frame_of_broken (hline : ¬ Unbroken name) :
    ¬ (System.start .sample (.oneMessage DISPATCHER_STREAM) (Job.pool [.deleteService name])).Always
      (losesAll .sample) (Frame name (.oneMessage DISPATCHER_STREAM)) [(0, .ok)] := by
  intro h
  have hbroken : ¬ (Op.kvGet .subscriptions name).FitsLine := fun hfits =>
    hline (hfits name List.mem_cons_self)
  have hlost : (losesAll .sample).answer 0 (.kvGet .subscriptions name)
      (.oneMessage DISPATCHER_STREAM) = (.error .connection, .empty) := if_neg hbroken
  have hframe := h.2 _ rfl
  refine not_frame (by decide) ?_ hframe
  show (((losesAll .sample).answer 0 (.kvGet .subscriptions name)
    (.oneMessage DISPATCHER_STREAM)).2.streams _).all _ = true
  rw [hlost]
  rfl

/-- **When the operations on a subscription stay inside it**, on every server that does as
documented: when its name is no internal queue's and fits into a line. -/
theorem frame_iff (name : String) :
    (∀ (env : Env) (S : NatsServer) (w : World) (jobs : Nat → Job) (ls : Schedule),
      Documented env S → (∀ i, (jobs i).About name) →
      (System.start env w jobs).Always S (Frame name w) ls) ↔
    name ∉ internalQueues ∧ Unbroken name := by
  constructor
  · intro h
    constructor
    · intro hname
      have hjobs : ∀ i, (Job.pool [.postStatus name 1 .ok] i).About name :=
        Job.pool_forall (P := Job.About name) (by simp [Job.About]) trivial
      exact not_frame_of_internal hname
        (h .sample (serve .sample) (.oneMessage name) _ _ (documented_serve .sample) hjobs)
    · by_contra hline
      have hjobs : ∀ i, (Job.pool [.deleteService name] i).About name :=
        Job.pool_forall (P := Job.About name) (by simp [Job.About]) trivial
      exact not_frame_of_broken hline
        (h .sample (losesAll .sample) _ _ _ (documented_losesAll .sample) hjobs)
  · intro hname env S w jobs ls hS hjobs
    exact frame_of_not_internal hS hname.1 hname.2 w jobs hjobs ls

/-! ## A subscription named "incoming" -/

def NewSubscription.incoming : NewSubscription := { sample with name := DISPATCHER_STREAM }

/-- The registration fails where NATS refuses to change the stream, and is deleted again. -/
def incomingJobs : List Job := [.create "s" .incoming, .deleteService DISPATCHER_STREAM]

def incomingSteps : Schedule :=
  List.replicate 4 (0, .ok) ++ [(0, .before .timeout)] ++ List.replicate 5 (1, .ok)

theorem not_frame_incoming : ¬ ∀ (name : String) (env : Env) (w : World) (jobs : Nat → Job)
    (ls : Schedule), (∀ i, (jobs i).About name) →
    (System.start env w jobs).Always (serve env) (Frame name w) ls := by
  intro h
  have hjobs : ∀ i, (Job.pool incomingJobs i).About DISPATCHER_STREAM :=
    Job.pool_forall (P := Job.About DISPATCHER_STREAM)
      (by simp [incomingJobs, NewSubscription.incoming, Job.About]) trivial
  have hrun := h DISPATCHER_STREAM .sample (.oneMessage DISPATCHER_STREAM) _ incomingSteps hjobs
  obtain ⟨d, hd, hlost⟩ : ∃ d,
      (System.start .sample (.oneMessage DISPATCHER_STREAM) (Job.pool incomingJobs)).run
        (serve .sample) incomingSteps = some d ∧
      (d.world.streams (streamKey DISPATCHER_STREAM)).all (·.msgs.isEmpty) = true :=
    ⟨_, rfl, rfl⟩
  exact not_frame (by decide) hlost (hrun.run hd)

end Provisioning
