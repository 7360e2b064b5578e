import Provisioning.Properties.DoneFinal

/-!
# Events after a registration

`server/core/dispatcher/service/dispatcher.py`. An event reaches the dispatcher through a stream,
and a registration through the watch of the bucket and a refresh of the mapping. Nothing orders the
two: an event that was accepted after the registration was answered can be handled with a mapping
that knows nothing of it, and is then acknowledged without having been sent.

What it takes is that the mapping in force was set by a refresh that asked for the keys when the
record was there, and that the record stayed there until it was read.

## Where a mapping comes from

Which refresh has set the mapping in force is read off the history, newest event first. `askedSince`
is the list of those who have asked for the keys since the record was last missing; `informed` says
that the last one to set the mapping is among them. A refresh on that list reads the record wherever
it is in its loop, since the key was in the answer it got, so the program is guarded from there on:
before it sets a mapping without the subscription it would have to be told something that is not so.

## Where a round is

A round that was handed the event and reads an informed mapping is going to publish it to the
subscription; one that was handed another message does not acknowledge this one. `Stands` lists
these cases, and each of them leads to the same end: what is acknowledged has been published.
-/

namespace Provisioning

open Await Store Prog

def Job.isDispatch : Job → Bool
  | .dispatch => true
  | _ => false

variable (jobs : Nat → Job) (name : String) (e : Nat) (m : Message)

/-! ## Delivered events -/

/-- The message is the event that job `e` posted. -/
def isEvent (msg : Msg) : Bool := msg.origin == e && msg.payload == .message m

/-- The answer hands the event to the dispatcher. -/
def handsEvent : (op : Op) → Except CallError op.Res → Bool
  | .fetch stream _, .ok msg => stream == eventQueue && isEvent e m msg
  | _, _ => false

/-- The call acknowledges the event. -/
def acksEvent : Op → Bool
  | .ack msg => isEvent e m msg
  | _ => false

/-- The answer confirms that the event is in the stream of the subscription. -/
def reachesMain : (op : Op) → Except CallError op.Res → Bool
  | .publish subject payload stream, .ok _ =>
    subject == mainSubject name && payload == .message m && stream == streamKey name
  | _, _ => false

/-- A round that acknowledges the event has published it to the subscription. -/
def EventDelivered (c : System) : Prop :=
  ∀ j, (jobs j).isDispatch = true → (∃ ev ∈ c.hist, ev.tid = j ∧ acksEvent e m ev.op = true) →
    c.Heard j fun op a => reachesMain name m op a = true

/-! ## Where the mapping comes from -/

variable (rt : RealmTopic)

/-- The record of the subscription is there and lists the topic. -/
def recordLists (w : World) : Bool :=
  (w.record name).any fun sub => sub.name == name && sub.realmsTopics.contains rt

def setsMapping : Op → Bool
  | .mappingSet _ => true
  | _ => false

/-- Who asked for the keys since the record last was not there. -/
def askedSince : List (Event Op Op.Res CallError Outage World) → List Nat
  | [] => []
  | ev :: hist =>
    if recordLists name rt ev.before then
      if asksForKeys ev.op then ev.tid :: askedSince hist else askedSince hist
    else []

/-- The mapping in force was set by one who asked for the keys when the record was there, and it
stayed there meanwhile. -/
def informed : List (Event Op Op.Res CallError Outage World) → Bool
  | [] => false
  | ev :: hist =>
    if setsMapping ev.op ∧ ev.fault.Lands then (askedSince name rt hist).contains ev.tid
    else informed hist

def asksForMapping : Op → Bool
  | .mappingGet => true
  | _ => false

/-- Whenever a round that was handed the event is answered with the mapping, the mapping is an
informed one. -/
def ReadsInformed (c : System) (l : Nat × Fault Outage) : Prop :=
  (jobs l.1).isDispatch = true → (c.prog l.1).next?.any asksForMapping = true → l.2.isOk = true →
    (c.Heard l.1 fun op a => handsEvent e m op a = true) →
      informed name ⟨m.realm, m.topic⟩ c.hist = true

/-! ## The program of a refresh -/

variable {jobs name e m rt} {env : Env}

/-- The answer leaves the subscription out. -/
def Misses (name : String) (rt : RealmTopic) : (op : Op) → Except CallError op.Res → Prop
  | .kvKeys .subscriptions, .ok keys => name ∉ keys
  | .kvGet .subscriptions key, .ok entry =>
    key = name ∧ ¬ (entry.value.name = name ∧ rt ∈ entry.value.realmsTopics)
  | _, _ => False

/-- The mapping has the subscription under the topic. -/
def Names (name : String) (rt : RealmTopic) (mapping : Mapping) : Prop :=
  ∃ sub ∈ mapping.subscribers rt.realm rt.topic, sub.name = name

/-- The call sets a mapping without the subscription. -/
def SetsWithout (name : String) (rt : RealmTopic) (op : Op) : Prop :=
  ∃ mapping, op = .mappingSet mapping ∧ ¬ Names name rt mapping

theorem names_ofSubscriptions {subs : List Subscription} :
    Names name rt (Mapping.ofSubscriptions subs) ↔
      ∃ sub ∈ subs, sub.name = name ∧ rt ∈ sub.realmsTopics := by
  unfold Names
  constructor
  · intro ⟨sub, hsub, hname⟩
    obtain ⟨hmem, hlists⟩ := Mapping.mem_subscribers_ofSubscriptions.mp hsub
    exact ⟨sub, hmem, hname, hlists⟩
  · intro ⟨sub, hmem, hname, hlists⟩
    exact ⟨sub, Mapping.mem_subscribers_ofSubscriptions.mpr ⟨hmem, hlists⟩, hname⟩

theorem uses_reads (keys : List String) :
    (keys.foldr thenReads (.pure [])).Uses fun op => ∃ key, op = .kvGet .subscriptions key := by
  induction keys with
  | nil => trivial
  | cons key keys ih =>
    exact Uses.bind (uses_request ⟨key, rfl⟩) fun entry => Uses.bind ih fun subs => trivial

theorem not_setsWithout_get (key : String) : ¬ SetsWithout name rt (.kvGet .subscriptions key) := by
  intro ⟨mapping, heq, _⟩
  cases heq

/-- Once the subscription is among what was read, it is in the mapping whatever else is read. -/
theorem guarded_reads_found {α : Type} (keys : List String) {f : List Subscription → Coro α}
    (hf : ∀ subs, (f subs).Guarded (Misses name rt) (SetsWithout name rt) fun _ => False) :
    ((keys.foldr thenReads (.pure [])).bind f).Guarded (Misses name rt) (SetsWithout name rt)
      fun _ => False := by
  have hreads : (keys.foldr thenReads (.pure [])).Guarded (Misses name rt) (SetsWithout name rt)
      fun _ => False :=
    Uses.guarded (uses_reads keys) fun op ⟨key, hop⟩ => hop ▸ not_setsWithout_get key
  exact hreads.bind (fun subs _ => hf subs) fun _ _ => id

/-- **A refresh that is not misinformed of the subscription maps it.** The induction is on the keys
still to be read, of which its own is one. -/
theorem guarded_reads {α : Type} {keys : List String} (hname : name ∈ keys)
    {f : List Subscription → Coro α}
    (hf : ∀ subs, (∃ sub ∈ subs, sub.name = name ∧ rt ∈ sub.realmsTopics) →
      (f subs).Guarded (Misses name rt) (SetsWithout name rt) fun _ => False) :
    ((keys.foldr thenReads (.pure [])).bind f).Guarded (Misses name rt) (SetsWithout name rt)
      fun _ => False := by
  induction keys generalizing f with
  | nil => cases hname
  | cons key keys ih =>
    refine ⟨not_setsWithout_get key, fun r hr => ?_⟩
    cases r with
    | error x => exact id
    | ok entry =>
      show (((keys.foldr thenReads (.pure [])).bind fun subs =>
        Prog.pure (entry.value :: subs)).bind f).Guarded _ _ _
      rw [bind_assoc]
      by_cases hkey : key = name
      · have hentry : entry.value.name = name ∧ rt ∈ entry.value.realmsTopics := by
          by_contra hnot
          exact hr ⟨hkey, hnot⟩
        exact guarded_reads_found keys fun subs =>
          hf (entry.value :: subs) ⟨entry.value, List.mem_cons_self, hentry⟩
      · apply ih ((List.mem_cons.mp hname).resolve_left (Ne.symm hkey))
        intro subs hsubs
        obtain ⟨sub, hsub, hgood⟩ := hsubs
        exact hf (entry.value :: subs) ⟨sub, List.mem_cons_of_mem _ hsub, hgood⟩

theorem guarded_updateSubscriptionsMapping :
    updateSubscriptionsMapping.Guarded (Misses name rt) (SetsWithout name rt) fun _ => False := by
  have hassoc : updateSubscriptionsMapping =
      (request (.kvKeys .subscriptions)).bind fun keys => (keys.foldr thenReads (.pure [])).bind
        fun subs => request (.mappingSet (Mapping.ofSubscriptions subs)) :=
    bind_assoc (request (.kvKeys .subscriptions)) ..
  rw [hassoc]
  refine guarded_request_bind.mpr ⟨?_, fun keys hkeys => ?_, fun _ _ => id⟩
  · intro ⟨mapping, heq, _⟩
    cases heq
  · apply guarded_reads (by_contra fun hname => hkeys hname)
    intro subs hsubs
    refine guarded_request.mpr ⟨?_, fun _ _ => id, fun _ _ => id⟩
    intro ⟨mapping, heq, hmapping⟩
    injection heq with heq
    exact hmapping (heq ▸ names_ofSubscriptions.mpr hsubs)

/-! ## Refreshes in a run -/

/-- A program that is about to ask for the keys is a refresh from there on. -/
def AsksWell (name : String) (rt : RealmTopic) (p : Coro Reply) : Prop :=
  ∀ op, p.next? = some op → asksForKeys op = true →
    p.Guarded (Misses name rt) (SetsWithout name rt) fun _ => False

theorem asksWell_await {op : Op} (hop : asksForKeys op = false)
    (k : Except CallError op.Res → Coro Reply) : AsksWell name rt (.await op k) := by
  intro op' hnext hasks
  cases hnext
  rw [hop] at hasks
  cases hasks

theorem asksWell_of_uses {p : Coro Reply} (hp : p.Uses fun op => asksForKeys op = false) :
    p.Everywhere (AsksWell name rt) := by
  apply hp.everywhere
  intro q hq op hnext hasks
  rw [hq.of_next? hnext] at hasks
  cases hasks

theorem asksWell_refresh : (updateSubscriptionsMapping.bind fun _ =>
    (.pure .finished : Coro Reply)).Everywhere (AsksWell name rt) := by
  refine ⟨fun _ _ _ => ?_, fun r => asksWell_of_uses ?_⟩
  · exact guarded_updateSubscriptionsMapping.bind (fun _ _ => id) fun _ _ => id
  · cases r with
    | error x => trivial
    | ok keys =>
      refine Uses.bind (Uses.bind ?_ fun subs => uses_request rfl) fun _ => trivial
      exact (uses_reads keys).mono fun op ⟨key, hop⟩ => hop ▸ rfl

/-- So is every job of the services. -/
theorem asksWell_job (job : Job) : (job.program env).Everywhere (AsksWell name rt) := by
  by_cases hrefresh : job = .updateMapping
  · subst hrefresh
    exact asksWell_refresh
  by_cases hstart : job = .dispatcherStart
  · subst hstart
    have hassoc : Job.dispatcherStart.program env =
        (ensureStream DISPATCHER_STREAM false [DISPATCHER_STREAM]).bind fun _ =>
          (ensureConsumer DISPATCHER_STREAM).bind fun _ =>
            updateSubscriptionsMapping.bind fun _ => (.pure .finished : Coro Reply) := by
      refine (bind_assoc _ _ _).trans (congrArg _ (funext fun _ => ?_))
      exact bind_assoc _ _ _
    rw [hassoc]
    refine Everywhere.after (P := fun op => asksForKeys op = false)
      (uses_ensureStream rfl rfl rfl) (fun op k hop => asksWell_await hop k) (fun e => nofun)
      fun _ => ?_
    exact Everywhere.after (P := fun op => asksForKeys op = false) (uses_ensureConsumer rfl rfl)
      (fun op k hop => asksWell_await hop k) (fun e => nofun) fun _ => asksWell_refresh
  · refine asksWell_of_uses ((elsewhere_job hrefresh hstart).mono fun op hop => ?_)
    unfold asksForKeys
    split
    · exact absurd rfl hop.2
    · rfl

/-- While the record is there, no answer leaves the subscription out. -/
theorem not_misses (env : Env) (i : Nat) (op : Op) {w : World} (f : Fault Outage)
    (h : recordLists name rt w = true) : ¬ Misses name rt op ((serve env).heard i op w f) := by
  obtain ⟨sub, hsub, hgood⟩ := (Option.any_eq_true ..).mp h
  have hlisted : sub.name = name ∧ rt ∈ sub.realmsTopics := by simpa using hgood
  intro hmisses
  -- Only an answer that arrives can miss the record, and it is given by the bucket as it is.
  have hlost : ∀ x, ¬ Misses name rt op (.error x) := by
    intro x hx
    cases op with
    | kvKeys b => cases b <;> exact hx
    | kvGet b key => cases b <;> exact hx
    | _ => exact hx
  have hanswer : Misses name rt op (answer env i op w).1 := (Server.heard_answered hlost hmisses).2
  cases op with
  | kvKeys b =>
    cases b with
    | subscriptions =>
      obtain ⟨entry, hget, -⟩ := Option.map_eq_some_iff.mp hsub
      exact hanswer (Store.Bucket.mem_keys_of_get? hget)
    | credentials => exact hanswer
    | cache => exact hanswer
  | kvGet b key =>
    cases b with
    | subscriptions =>
      cases hget : (w.bucket .subscriptions).get? key with
      | none =>
        simp only [answer, hget] at hanswer
        exact hanswer
      | some entry =>
        simp only [answer, hget] at hanswer
        obtain ⟨rfl, hnot⟩ := hanswer
        have hrecord : w.record key = some entry.value := by
          simp [World.record, Store.Bucket.value?, hget]
        rw [hrecord] at hsub
        cases hsub
        exact hnot hlisted
    | credentials => exact hanswer
    | cache => exact hanswer
  | _ => exact hanswer

/-- What is known of the refreshes between two steps. -/
structure Mapped (name : String) (rt : RealmTopic) (c : System) : Prop where
  asks : ∀ j, (c.prog j).Everywhere (AsksWell name rt)
  guarded : ∀ r ∈ askedSince name rt c.hist,
    (c.prog r).Guarded (Misses name rt) (SetsWithout name rt) fun _ => False
  names : informed name rt c.hist = true → Names name rt c.world.mapping

theorem mapped_start (w : World) : Mapped name rt (System.start env w jobs) :=
  ⟨fun j => asksWell_job (jobs j), fun _ hr => absurd hr List.not_mem_nil, nofun⟩

theorem Mapped.step {c d : System} {l : Nat × Fault Outage} (h : Mapped name rt c)
    (hs : c.step (serve env) l = some d) : Mapped name rt d := by
  have hasks := Config.step_everywhere (Q := fun _ => AsksWell name rt) h.asks hs
  obtain ⟨op, k, hp, rfl⟩ := Config.step_cases hs
  obtain ⟨i, f⟩ := l
  refine ⟨hasks, ?_, fun hinformed => ?_⟩
  · -- As long as the bucket has the record, a refresh that is asked for joins the others, and none
    -- of them has missed it.
    by_cases hlists : recordLists name rt c.world = true
    · rw [Config.next_hist, askedSince, if_pos hlists]
      intro r hr
      have hguarded : (c.prog r).Guarded (Misses name rt) (SetsWithout name rt)
          fun _ => False := by
        split at hr
        · next hop =>
          rcases List.mem_cons.mp hr with rfl | hr
          · exact (h.asks _).here op (next?_of_await hp) hop
          · exact h.guarded r hr
        · exact h.guarded r hr
      by_cases hri : r = i
      · subst hri
        rw [Config.next_prog_self]
        rw [hp] at hguarded
        exact hguarded.2 _ (not_misses env r op f hlists)
      · rw [Config.next_prog_of_ne hri]
        exact hguarded
    · rw [Config.next_hist, askedSince, if_neg hlists]
      exact fun _ hr => absurd hr List.not_mem_nil
  · rw [Config.next_hist, informed] at hinformed
    rw [Config.next_world]
    -- The mapping is set by a refresh that was asked for since, or by nobody.
    by_cases hset : setsMapping op = true ∧ f.Lands
    · rw [if_pos hset] at hinformed
      have hthis := h.guarded i (by simpa using hinformed)
      rw [hp] at hthis
      obtain ⟨hop, hf⟩ := hset
      unfold setsMapping at hop
      split at hop
      · next mapping =>
        rw [Server.left_of_lands hf]
        by_contra hnot
        exact hthis.1 ⟨mapping, rfl, hnot⟩
      · cases hop
    · rw [if_neg hset] at hinformed
      have hsame : ((serve env).left i op c.world f).mapping = c.world.mapping := by
        refine Server.left_preserves (P := fun w : World => w.mapping = c.world.mapping) rfl ?_
        intro hf
        apply mapping_answer env i c.world
        intro mapping hop
        exact hset ⟨by rw [hop]; rfl, hf⟩
      rw [hsame]
      exact h.names hinformed

/-! ## Rounds of the dispatcher -/

/-- What a round does about the event it was handed. -/
def dispatchWith (msg : Msg) : Coro Reply := do
  handleEvent msg
  return .finished

theorem dispatch_program (env : Env) : ∃ k,
    Job.dispatch.program env = .await (.fetch eventQueue eventWorker) k ∧
      (∀ msg, k (.ok msg) = dispatchWith msg) ∧ ∀ x, (k (.error x)).Finished := by
  refine ⟨_, rfl, fun msg => ?_, fun x => ?_⟩
  · rfl
  · cases x <;> rfl

/-- The calls of a round are guarded so: what acknowledges the event waits for its publishing. -/
abbrev Waits (name : String) (e : Nat) (m : Message) (p : Coro Reply) : Prop :=
  p.Guarded (fun op a => reachesMain name m op a = true) (fun op => acksEvent e m op = true)
    fun _ => False

theorem waits_of_finished {p : Coro Reply} (hp : p.Finished) : Waits name e m p :=
  (uses_of_finished (P := fun _ => False) hp).guarded fun _ => False.elim

/-- A round with another message does not acknowledge the event. -/
theorem waits_other {msg : Msg} (hmsg : isEvent e m msg = false) :
    Waits name e m (dispatchWith msg) := by
  have huses : (handleEvent msg).Uses fun op => acksEvent e m op = false := by
    unfold handleEvent validatedMessage
    cases msg.payload with
    | prefill r => trivial
    | simple publisherName body => trivial
    | message m' =>
      simp only [pure_eq, bind_eq, bind_pure]
      refine Uses.bind (uses_request rfl) ?_
      intro mapping
      refine Uses.bind (Uses.forEach fun sub _ => uses_addMessage rfl) fun _ => ?_
      exact uses_request hmsg
  refine Uses.guarded (Uses.bind huses fun _ => trivial) ?_
  intro op hop
  rw [hop]
  exact Bool.false_ne_true

/-- **A round with the event** reads the mapping, and if that names the subscription, publishes
before it acknowledges. -/
theorem dispatchWith_event (name : String) (e : Nat) {msg : Msg}
    (hmsg : msg.payload = .message m) : ∃ k,
    dispatchWith msg = .await .mappingGet k ∧
      (∀ mapping, Names name ⟨m.realm, m.topic⟩ mapping → Waits name e m (k (.ok mapping))) ∧
      ∀ x, (k (.error x)).Finished := by
  unfold dispatchWith handleEvent validatedMessage
  rw [hmsg]
  refine ⟨_, rfl, fun mapping hnames => ?_, fun x => rfl⟩
  obtain ⟨sub, hsub, rfl⟩ := hnames
  have hloop : (Prog.forEach (mapping.subscribers m.realm m.topic) fun sub =>
      addMessage sub.name (mainSubject sub.name) (.message m)).Guarded
      (fun op a => reachesMain sub.name m op a = true) (fun op => acksEvent e m op = true)
      fun r => r = .ok () := by
    refine Guarded.forEach hsub ?_ fun other _ => ?_
    · refine guarded_request_bind.mpr ⟨Bool.false_ne_true, fun seq hM => ?_, fun _ _ => nofun⟩
      exact absurd (by simp [reachesMain]) hM
    · exact Uses.guarded (P := fun op => acksEvent e m op = false) (uses_addMessage rfl)
        fun op hop => by rw [hop]; exact Bool.false_ne_true
  refine Guarded.bind (R := fun _ => False) ?_ (fun _ _ => id) fun _ _ => id
  exact hloop.bind (fun _ ha => absurd rfl ha) fun _ _ => id

/-- Where a round stands about the event. -/
def Stands (env : Env) (name : String) (e : Nat) (m : Message) (c : System) (j : Nat) : Prop :=
  c.prog j = Job.dispatch.program env ∨
    ((c.Heard j fun op a => handsEvent e m op a = true) ∧
      ∃ msg, msg.payload = .message m ∧ c.prog j = dispatchWith msg) ∨
    Waits name e m (c.prog j) ∨ c.Heard j fun op a => reachesMain name m op a = true

theorem Stands.step {c : System} {i : Nat} {f : Fault Outage} {op : Op}
    {k : Except CallError op.Res → Coro Reply} (h : Stands env name e m c i)
    (hp : c.prog i = .await op k) (hnames : asksForMapping op = true → f.isOk = true →
      (c.Heard i fun op a => handsEvent e m op a = true) →
        Names name ⟨m.realm, m.topic⟩ c.world.mapping) :
    Stands env name e m (c.next (serve env) i f op k) i := by
  unfold Stands
  rw [Config.next_prog_self]
  rcases h with hstart | ⟨hhanded, msg, hmsg, hround⟩ | hwaits | hreached
  · obtain ⟨k', hprogram, hk, hfailed⟩ := dispatch_program env
    cases hp.symm.trans (hstart.trans hprogram)
    cases hr : (serve env).heard i (.fetch eventQueue eventWorker) c.world f with
    | error x => exact Or.inr (Or.inr (Or.inl (waits_of_finished (hfailed x))))
    | ok msg =>
      rw [hk]
      cases hmsg : isEvent e m msg with
      | false => exact Or.inr (Or.inr (Or.inl (waits_other hmsg)))
      | true =>
        refine Or.inr (Or.inl ⟨Config.heard_next.mpr (Or.inl ⟨rfl, ?_⟩), msg, ?_, rfl⟩)
        · rw [hr]
          simp [handsEvent, hmsg]
        · have hboth : msg.origin = e ∧ msg.payload = .message m := by simpa [isEvent] using hmsg
          exact hboth.2
  · obtain ⟨k', hprogram, hk, hfailed⟩ := dispatchWith_event name e hmsg
    cases hp.symm.trans (hround.trans hprogram)
    refine Or.inr (Or.inr (Or.inl ?_))
    cases hr : (serve env).heard i .mappingGet c.world f with
    | error x => exact waits_of_finished (hfailed x)
    | ok mapping =>
      obtain ⟨rfl, hanswer⟩ := Server.heard_eq_ok hr
      cases hanswer
      exact hk _ (hnames rfl rfl hhanded)
  · rw [hp] at hwaits
    by_cases hreached : reachesMain name m op ((serve env).heard i op c.world f) = true
    · exact Or.inr (Or.inr (Or.inr (Config.heard_next.mpr (Or.inl ⟨rfl, hreached⟩))))
    · exact Or.inr (Or.inr (Or.inl (hwaits.2 _ hreached)))
  · exact Or.inr (Or.inr (Or.inr hreached.next))

/-- Wherever it stands, it acknowledges the event only once it has published it. -/
theorem Stands.reached {c : System} {i : Nat} {op : Op} {k : Except CallError op.Res → Coro Reply}
    (h : Stands env name e m c i) (hp : c.prog i = .await op k) (hacks : acksEvent e m op = true) :
    c.Heard i fun op a => reachesMain name m op a = true := by
  rcases h with hstart | ⟨-, msg, hmsg, hround⟩ | hwaits | hreached
  · obtain ⟨k', hprogram, -, -⟩ := dispatch_program env
    cases hp.symm.trans (hstart.trans hprogram)
    cases hacks
  · obtain ⟨k', hprogram, -, -⟩ := dispatchWith_event name e hmsg
    cases hp.symm.trans (hround.trans hprogram)
    cases hacks
  · rw [hp] at hwaits
    exact absurd hacks hwaits.1
  · exact hreached

/-! ## Every run -/

/-- What holds between two steps. -/
structure Delivering (env : Env) (jobs : Nat → Job) (name : String) (e : Nat) (m : Message)
    (c : System) : Prop where
  mapped : Mapped name ⟨m.realm, m.topic⟩ c
  stands : ∀ j, (jobs j).isDispatch = true → Stands env name e m c j
  delivered : EventDelivered jobs name e m c

theorem Delivering.step {c d : System} {l : Nat × Fault Outage}
    (h : Delivering env jobs name e m c) (hreads : ReadsInformed jobs name e m c l)
    (hs : c.step (serve env) l = some d) : Delivering env jobs name e m d := by
  have hmapped := h.mapped.step hs
  obtain ⟨op, k, hp, rfl⟩ := Config.step_cases hs
  obtain ⟨i, f⟩ := l
  refine ⟨hmapped, fun j hj => ?_, fun j hj hacked => ?_⟩
  · by_cases hji : j = i
    · subst hji
      -- This dispatcher moves: if it reads the mapping now, the name is in it.
      apply (h.stands j hj).step hp
      intro hasks hok hhanded
      refine h.mapped.names (hreads hj ?_ hok hhanded)
      rw [hp]
      exact hasks
    · unfold Stands
      rw [Config.next_prog_of_ne hji]
      rcases h.stands j hj with hstart | ⟨hhanded, hround⟩ | hwaits | hreached
      · exact Or.inl hstart
      · exact Or.inr (Or.inl ⟨hhanded.next, hround⟩)
      · exact Or.inr (Or.inr (Or.inl hwaits))
      · exact Or.inr (Or.inr (Or.inr hreached.next))
  · obtain ⟨ev, hev, htid, hacks⟩ := hacked
    rcases List.mem_cons.mp hev with rfl | hev
    · have hji : i = j := htid
      subst hji
      exact ((h.stands i hj).reached hp hacks).next
    · exact (h.delivered j hj ⟨ev, hev, htid, hacks⟩).next

/-- **No event is lost around a registration** that the dispatcher knows of. In any run of any
jobs: where every round that is handed the event reads a mapping of a refresh that asked for the
keys when the record was there, and found it there, a round that acknowledges the event has
published it to the subscription. -/
theorem event_delivered (env : Env) (w : World) (jobs : Nat → Job) (name : String) (e : Nat)
    (m : Message) (ls : Schedule)
    (hreads : (System.start env w jobs).Along (serve env) (ReadsInformed jobs name e m) ls) :
    (System.start env w jobs).Always (serve env) (EventDelivered jobs name e m) ls := by
  have hstart : Delivering env jobs name e m (System.start env w jobs) := by
    refine ⟨mapped_start w, fun j hj => Or.inl ?_, fun j _ hacked => ?_⟩
    · cases hjob : jobs j with
      | dispatch => rw [System.start_prog, hjob]
      | _ => rw [hjob] at hj; cases hj
    · obtain ⟨ev, hev, -⟩ := hacked
      exact absurd hev List.not_mem_nil
  exact (Config.always_of_invariant (fun c l d hc hl hs => hc.step hl hs) hstart hreads).mono
    fun c hc => hc.delivered

/-! ## An event that overtakes the watch -/

instance (jobs : Nat → Job) (name : String) (e : Nat) (m : Message) (c : System)
    (l : Nat × Fault Outage) : Decidable (ReadsInformed jobs name e m c l) :=
  have : Decidable (c.Heard l.1 fun op a => handsEvent e m op a = true) :=
    inferInstanceAs (Decidable (∃ ev ∈ c.hist, _ ∧ _))
  inferInstanceAs (Decidable (_ → _ → _ → _ → _))

/-- A registration, an event, a round of the dispatcher, and the refresh that the watch calls. -/
def overtaking : Nat → Job :=
  Job.pool [.create "s" .withoutPrefill, .postEvent .sample, .dispatch, .updateMapping]

/-- The registration. -/
def registrationSteps : Schedule := List.replicate 7 (0, .ok)

/-- The event is posted, handled and acknowledged. -/
def eventSteps : Schedule := [(1, .ok)] ++ List.replicate 4 (2, .ok)

/-- The refresh comes before the event. -/
theorem event_delivered_refreshed :
    (System.start .sample .prepared overtaking).Always (serve .sample)
      (EventDelivered overtaking "a" 1 .sample)
      (registrationSteps ++ List.replicate 3 (3, .ok) ++ eventSteps) :=
  event_delivered .sample .prepared overtaking "a" 1 .sample _ (by decide +kernel)

/-- The step does not delete the subscription. -/
def NotDeleted (name : String) (c : System) (l : Nat × Fault Outage) : Prop :=
  (c.prog l.1).next?.any (deletesRecord name) = false

instance (name : String) (c : System) (l : Nat × Fault Outage) : Decidable (NotDeleted name c l) :=
  inferInstanceAs (Decidable (_ = _))

/-- What the registration leaves. -/
def registeredSystem : System :=
  ((System.start .sample .prepared overtaking).run (serve .sample) registrationSteps).getD
    (System.start .sample .prepared overtaking)

/-- The event is acknowledged before the watch reports the registration. -/
theorem not_event_delivered : ¬ ∀ (env : Env) (w : World) (jobs : Nat → Job) (i e : Nat)
    (salt : String) (sub : NewSubscription) (m : Message) (ls ms : Schedule) (c : System),
    jobs i = .create salt sub → jobs e = .postEvent m →
    ⟨m.realm, m.topic⟩ ∈ sub.realmsTopics → (System.start env w jobs).run (serve env) ls = some c →
    c.prog i = .pure (.status 201) → (∀ ev ∈ c.hist, ev.tid ≠ e) →
    c.Along (serve env) (NotDeleted sub.name) ms →
    c.Always (serve env) (EventDelivered jobs sub.name e m) ms := by
  intro h
  have halways := h .sample .prepared overtaking 0 1 "s" .withoutPrefill .sample registrationSteps
    (eventSteps.take 4) registeredSystem rfl rfl List.mem_cons_self rfl rfl (by decide +kernel)
    (by decide +kernel)
  obtain ⟨d, hrun, hacked, hnot⟩ : ∃ d,
      registeredSystem.run (serve .sample) (eventSteps.take 4) = some d ∧
      (∃ ev ∈ d.hist, ev.tid = 2 ∧ acksEvent 1 .sample ev.op = true) ∧
      ¬ ∃ ev ∈ d.hist, ev.tid = 2 ∧ reachesMain "a" .sample ev.op ev.heard = true :=
    ⟨_, rfl, by decide +kernel, by decide +kernel⟩
  exact hnot (halways.run hrun 2 rfl hacked)

end Provisioning
