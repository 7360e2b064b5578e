import Provisioning.Model.Calls

/-!
# The initial state comes before the live changes

A subscription has one stream and one consumer, and both subjects go through them. The consumer
of the API asks for the one or the other subject, but the durable consumer it binds to does not
look at subjects: what it is handed is whatever is next in the stream. So the order of a
subscription's messages is the order in which they were published, and the dispatcher begins to
publish as soon as there is a record, while the prefill service may still be busy.

`prefill_before_live` says that this is all that can go wrong: where every message of the prefill
finds the live messages before it acknowledged, the consumer sees the prefill first.

## The order of the stream

`PrefillFirst` is about the stream alone: a live message in front of a prefill one has been
acknowledged. It is said of pairs of messages and not of the next one to be delivered, because what
is delivered next changes with each redelivery, while the order of the numbers does not. New
messages get the largest number, so a step can only make a pair whose second message is new.

A consumer that was handed a live message is another matter: the message may go back to the stream
and the prefill may be published meanwhile. So the invariant also speaks of those who hold one and
are still running (`InOrder.held`), and the condition asks that nobody does when the prefill is
published.

## Why the acknowledgement counts

What a consumer has not acknowledged is delivered to it again, so a message that was handed out has
not been served for good. This is why *drained* means acknowledged: being delivered is not enough.
-/

namespace Provisioning

open Await Store Prog

/-- No message of the prefill is undelivered or unacknowledged in the stream of `name`. -/
def PrefillDrained (w : World) (name : String) : Prop :=
  ∀ s, w.streams (streamKey name) = some s → ∀ p ∈ s.msgs, p.subject = prefillSubject name →
    p.seq ∈ s.acked (durableKey name)

/-- No live message of the stream is unacknowledged. -/
def LiveAcked (w : World) (name : String) : Prop :=
  ∀ s, w.streams (streamKey name) = some s → ∀ m ∈ s.msgs, m.subject = mainSubject name →
    m.seq ∈ s.acked (durableKey name)

/-- A live message that stands before one of the prefill has been acknowledged. -/
def PrefillFirst (w : World) (name : String) : Prop :=
  ∀ s, w.streams (streamKey name) = some s → ∀ m ∈ s.msgs, ∀ p ∈ s.msgs,
    m.subject = mainSubject name → p.subject = prefillSubject name → m.seq < p.seq →
    m.seq ∈ s.acked (durableKey name)

/-- The consumer of `name` is handed `msg`. -/
def Fetches (name : String) (msg : Msg) : (op : Op) → Except CallError op.Res → Prop
  | .fetch stream durable, .ok m =>
    stream = streamKey name ∧ durable = durableKey name ∧ m = msg
  | _, _ => False

/-- …a live one. -/
def FetchesLive (name : String) (op : Op) (r : Except CallError op.Res) : Prop :=
  ∃ msg, msg.subject = mainSubject name ∧ Fetches name msg op r

/-- What the consumer makes of a message of the stream. -/
def Carries (msg : Msg) (m : ProvisioningMessage) : Prop :=
  msg.payload = .message m.message ∧ msg.streamSeq = m.sequenceNumber ∧
    msg.numDelivered = m.numDelivered

/-- Call `i` has returned `m`, and it was handed it as a live message only after the prefill. -/
def ServedInOrder (i : Nat) (name : String) (m : ProvisioningMessage) (c : System) : Prop :=
  ∃ msg, c.Heard i (Fetches name msg) ∧ Carries msg m ∧
    (msg.subject = mainSubject name → PrefillDrained c.world name)

/-- What a served call has to find: a message of the prefill is published where every live message
is acknowledged and no call that was handed one is still running. -/
def PublishesInOrder (name : String) (c : System) (l : Nat × Fault Outage) : Prop :=
  ∀ payload,
    (c.prog l.1).next? = some (.publish (prefillSubject name) payload (streamKey name)) →
    l.2.Lands →
    LiveAcked c.world name ∧ ∀ j, c.Heard j (FetchesLive name) → (c.prog j).Finished

/-- Registrations, the prefill service, the dispatcher and the consumers. -/
def Job.Delivers : Job → Prop
  | .create .. => True
  | .setStatus .. => True
  | .getNext .. => True
  | .postStatus .. => True
  | .postEvent .. => True
  | .prefill => True
  | .dispatch => True
  | .updateMapping => True
  | .dispatcherStart => True
  | .ackWaitExpires .. => True
  | .idle => True
  | _ => False

/-! ## What the jobs call -/

variable {env : Env}

def KeepsConsumers (op : Op) : Prop := ∀ stream durable, op ≠ .deleteConsumer stream durable

theorem uses_delivers {job : Job} (h : job.Delivers) :
    (job.program env).Uses KeepsConsumers := by
  apply (uses_program env job).mono
  intro op hop
  cases job with
  | create salt sub => cases hop <;> exact nofun
  | setStatus name status => cases hop <;> exact nofun
  | getNext name rounds pop =>
    cases hop with
    | message hop => cases hop <;> exact nofun
    | _ => exact nofun
  | postStatus name seqNum status => cases hop <;> exact nofun
  | postEvent message => exact hop ▸ nofun
  | prefill =>
    cases hop with
    | handle name hop =>
      cases hop with
      | status status htaken hop => cases hop <;> exact nofun
      | _ => exact nofun
    | _ => exact nofun
  | dispatch => cases hop <;> exact nofun
  | updateMapping => cases hop <;> exact nofun
  | dispatcherStart =>
    cases hop with
    | mapping hop => cases hop <;> exact nofun
    | _ => exact nofun
  | ackWaitExpires stream durable => exact hop ▸ nofun
  | idle => exact hop.elim
  | _ => exact h.elim

/-! ## One call -/

/-- A call that publishes nothing of the prefill leaves the prefill drained. -/
theorem prefillDrained_answer (env : Env) (tid : Nat) {op : Op} {w : World} {name : String}
    (h : PrefillDrained w name) (hop : KeepsConsumers op)
    (hpub : ∀ payload, op ≠ .publish (prefillSubject name) payload (streamKey name)) :
    PrefillDrained (answer env tid op w).2 name := by
  intro s' hs' p hp hsub
  rcases stream_after hs' with hempty | ⟨s, hs, hmsgs, hacked⟩
  · rw [hempty] at hp
    cases hp
  · rcases hmsgs p hp with hold | ⟨subject, payload, rfl, rfl⟩
    · exact hacked _ (hop _ _) _ (h s hs p hold hsub)
    · exact absurd (by rw [← hsub]) (hpub payload)

/-- **The order of the stream.** A live message goes to the end of the stream; one of the prefill
goes there when the live ones are acknowledged. -/
theorem prefillFirst_answer (env : Env) (tid : Nat) {op : Op} {w : World} {name : String}
    (h : PrefillFirst w name) (hop : KeepsConsumers op)
    (hpub : ∀ payload, op = .publish (prefillSubject name) payload (streamKey name) →
      LiveAcked w name) :
    PrefillFirst (answer env tid op w).2 name := by
  intro s' hs' m hm p hp hmain hpre hlt
  rcases stream_after hs' with hempty | ⟨s, hs, hmsgs, hacked⟩
  · rw [hempty] at hp
    cases hp
  · have hkeep := hacked _ (hop (streamKey name) (durableKey name))
    rcases hmsgs m hm with hmold | ⟨subject, payload, -, hmnew⟩
    · refine hkeep _ ?_
      rcases hmsgs p hp with hpold | ⟨subject, payload, hpublish, hpnew⟩
      · exact h s hs m hmold p hpold hmain hpre hlt
      · refine hpub payload ?_ s hs m hmold hmain
        rw [hpublish, ← hpre, hpnew]
    · -- Nothing comes after the message that was just published.
      exfalso
      rcases hmsgs p hp with hpold | ⟨subject', payload', -, hpnew⟩
      · have hbound := s.bounded p hpold
        rw [hmnew] at hlt
        exact absurd hlt (Nat.not_lt.mpr (Nat.le_succ_of_le hbound))
      · rw [hmnew, hpnew] at hlt
        exact Nat.lt_irrefl _ hlt

/-- A consumer that is handed a live message has acknowledged the prefill. -/
theorem prefillDrained_fetch {tid : Nat} {w : World} {name : String} {msg : Msg}
    (h : PrefillFirst w name)
    (hr : (answer env tid (.fetch (streamKey name) (durableKey name)) w).1 = .ok msg)
    (hmain : msg.subject = mainSubject name) : PrefillDrained w name := by
  intro s hs p hp hpre
  simp only [answer, hs] at hr
  cases hd : s.durables (durableKey name) with
  | none => rw [hd] at hr; cases hr
  | some d =>
    rw [hd] at hr
    cases hm : s.fetch d with
    | none => simp only [hm] at hr; cases hr
    | some m =>
      simp only [hm] at hr
      have holdest := Stream.oldest_of_fetch hm
      have hsubject : m.subject = mainSubject name := by
        rw [← hmain, ← Except.ok.inj hr]
      rw [Stream.acked_of_durable hd]
      -- The live message is the oldest that is not acknowledged.
      rcases Nat.lt_trichotomy p.seq m.seq with hlt | heq | hgt
      · exact Stream.acked_of_lt_oldest holdest hp hlt
      · have hsame := Stream.eq_of_seq_eq hp (Stream.mem_of_oldest holdest) heq
        rw [← hsame, hpre] at hsubject
        exact absurd hsubject.symm (mainSubject_ne_prefillSubject _ _)
      · have hacked := h s hs m (Stream.mem_of_oldest holdest) p hp hsubject hpre hgt
        rw [Stream.acked_of_durable hd] at hacked
        exact absurd hacked (Stream.not_acked_of_oldest holdest)

/-- Only a call that nothing happened to is handed a message. -/
theorem fetches_heard {tid : Nat} {w : World} {op : Op} {name : String} {msg : Msg}
    {f : Fault Outage} (h : Fetches name msg op ((serve env).heard tid op w f)) :
    f = .ok ∧ op = .fetch (streamKey name) (durableKey name) ∧
      Fetches name msg op (answer env tid op w).1 := by
  have hop : op = .fetch (streamKey name) (durableKey name) := by
    unfold Fetches at h
    split at h
    · rw [h.1, h.2.1]
    · exact h.elim
  subst hop
  obtain ⟨hf, hans⟩ := Server.heard_answered (M := Fetches name msg _) (fun _ => id) h
  exact ⟨hf, rfl, hans⟩

theorem fetches_ok {name : String} {msg : Msg}
    {r : Except CallError (Op.fetch (streamKey name) (durableKey name)).Res}
    (h : Fetches name msg (.fetch (streamKey name) (durableKey name)) r) : r = .ok msg := by
  cases r with
  | ok m => exact congrArg Except.ok h.2.2
  | error e => exact h.elim

/-! ## One step -/

/-- The order of the stream, and that a call that was handed a live message and is still running
was handed it after the prefill. -/
structure InOrder (name : String) (c : System) : Prop where
  uses : ∀ i, (c.prog i).Uses KeepsConsumers
  first : PrefillFirst c.world name
  held : ∀ j, c.Heard j (FetchesLive name) → ¬ (c.prog j).Finished → PrefillDrained c.world name

variable {name : String} {c d : System} {l : Nat × Fault Outage}

/-- Whoever has been handed a live message when a step is taken, and was running before it, was
handed it after the prefill. -/
theorem InOrder.step_drained (h : InOrder name c) (hmeets : PublishesInOrder name c l)
    (hs : c.step (serve env) l = some d) {j : Nat} (hheard : d.Heard j (FetchesLive name))
    (hrunning : ¬ (c.prog j).Finished) : PrefillDrained d.world name := by
  obtain ⟨op, k, hp, rfl⟩ := Config.step_cases hs
  have hnext : (c.prog l.1).next? = some op := next?_of_await hp
  have hop : KeepsConsumers op := (h.uses l.1).of_next? hnext
  rw [Config.next_world]
  rcases Config.heard_next.mp hheard with ⟨-, msg, hmain, hnow⟩ | hbefore
  · obtain ⟨hf, rfl, hans⟩ := fetches_heard hnow
    have hdrained := prefillDrained_fetch h.first (fetches_ok hans) hmain
    rw [Server.left_of_lands (hf ▸ Fault.lands_ok)]
    exact prefillDrained_answer env l.1 hdrained hop nofun
  · have hdrained := h.held j hbefore hrunning
    apply Server.left_preserves (P := fun w => PrefillDrained w name) hdrained
    intro hl
    refine prefillDrained_answer env l.1 hdrained hop fun payload hpub => hrunning ?_
    exact (hmeets payload (by rw [hnext, hpub]) hl).2 j hbefore

theorem InOrder.step (h : InOrder name c) (hmeets : PublishesInOrder name c l)
    (hs : c.step (serve env) l = some d) : InOrder name d := by
  refine ⟨Config.step_uses h.uses hs, ?_, fun j hheard hrunning => ?_⟩
  · obtain ⟨op, k, hp, rfl⟩ := Config.step_cases hs
    have hnext : (c.prog l.1).next? = some op := next?_of_await hp
    have hop : KeepsConsumers op := (h.uses l.1).of_next? hnext
    rw [Config.next_world]
    apply Server.left_preserves (P := fun w => PrefillFirst w name) h.first
    intro hl
    apply prefillFirst_answer env l.1 h.first hop
    intro payload hpub
    exact (hmeets payload (by rw [hnext, hpub]) hl).1
  · exact h.step_drained hmeets hs hheard fun hfin => hrunning (Config.step_finished hfin hs)

/-! ## What a consumer returns it has been handed -/

theorem guarded_getMessage (name subject : String) (pop : Bool) (m : ProvisioningMessage) :
    (getMessage name subject pop).Guarded
      (fun op r => ∃ msg, Carries msg m ∧ Fetches name msg op r) (fun _ => False)
      fun r => r = .ok (some m) := by
  have hnothing : ∀ {α : Type} {p : Coro α}, p.Uses (fun _ => True) →
      p.Guarded (fun op r => ∃ msg, Carries msg m ∧ Fetches name msg op r) (fun _ => False)
        fun _ => False := fun hp => Uses.guarded hp fun _ _ => id
  refine Guarded.bind (hnothing (Uses.catching (Uses.bind (uses_request trivial) fun _ => trivial)
    trivial)) (fun found _ => ?_) fun _ _ => nofun
  cases found with
  | false => exact nofun
  | true =>
    refine guarded_request_bind.mpr ⟨id, fun _ _ => ?_, fun _ _ => nofun⟩
    refine guarded_request_bind.mpr ⟨id, fun _ _ => ?_, fun _ _ => nofun⟩
    -- A message can only come from the fetch; all calls in front of it hand out none.
    have hfetch : (catching .timeout ((request (.fetch (streamKey name) (durableKey name))).bind
        fun msg => Prog.pure (some msg)) (Prog.pure none)).Guarded
        (fun op r => ∃ msg, Carries msg m ∧ Fetches name msg op r) (fun _ => False)
        (fun r => ∃ msg, Carries msg m ∧ r = .ok (some msg)) := by
      refine Guarded.tryCatch (R := fun r => ∃ msg, Carries msg m ∧ r = .ok (some msg))
        (guarded_request_bind.mpr ⟨id, fun msg hM => ?_, fun _ _ => nofun⟩) (fun _ => id)
        fun e _ => ?_
      · intro h
        obtain ⟨msg', hcarries, h⟩ := h
        obtain rfl := Option.some.inj (Except.ok.inj h)
        exact hM ⟨msg, hcarries, rfl, rfl, rfl⟩
      · split <;> exact fun ⟨_, _, h⟩ => nomatch h
    refine Guarded.bind hfetch (fun msg? hmsg => ?_) fun _ _ => nofun
    cases msg? with
    | none => exact nofun
    | some msg =>
      -- Decoding makes no call, so what it returns has been fetched.
      have hreturn : ((provisioningMessageFrom msg).bind fun m => Prog.pure (some m)).Guarded
          (fun op r => ∃ msg, Carries msg m ∧ Fetches name msg op r) (fun _ => False)
          (fun r => r = .ok (some m)) := by
        unfold provisioningMessageFrom
        cases hpayload : msg.payload with
        | message body =>
          intro h
          obtain rfl := Option.some.inj (Except.ok.inj h)
          exact hmsg ⟨msg, ⟨hpayload, rfl, rfl⟩, rfl⟩
        | prefill _ => exact nofun
        | simple _ _ => exact nofun
      cases pop with
      | false => exact hreturn
      | true => exact guarded_request_bind.mpr ⟨id, fun _ _ => hreturn, fun _ _ => nofun⟩

/-- **A message that a call returns is one it was handed.** -/
theorem guarded_getNext_fetches (name : String) (rounds : Nat) (pop : Bool)
    (m : ProvisioningMessage) :
    ((Job.getNext name rounds pop).program env).Guarded
      (fun op r => ∃ msg, Carries msg m ∧ Fetches name msg op r) (fun _ => False)
      fun r => r = .ok (.message (some m)) := by
  have hnext : (getNextMessage name rounds pop).Guarded
      (fun op r => ∃ msg, Carries msg m ∧ Fetches name msg op r) (fun _ => False)
      fun r => r = .ok (some m) := by
    refine guarded_request_bind.mpr ⟨id, fun flag _ => ?_, fun _ _ => nofun⟩
    cases flag with
    | true => exact guarded_getMessage name _ pop m
    | false =>
      have hstatus : (checkSubscriptionStatus name rounds).Uses fun _ => True :=
        uses_checkSubscriptionStatus name trivial rounds
      refine Guarded.bind (Uses.guarded hstatus fun _ _ => id) (fun status _ => ?_) fun _ _ => nofun
      split
      · exact nofun
      · refine Guarded.bind (guarded_getMessage name _ pop m) (fun message hm => ?_)
          fun _ _ => nofun
        cases message with
        | none => exact guarded_request_bind.mpr ⟨id, fun _ _ => nofun, fun _ _ => nofun⟩
        | some m' => exact hm
  refine Guarded.bind hnext (fun message hm => ?_) fun _ _ => nofun
  intro h
  cases h
  exact hm rfl

/-! ## Every run -/

/-- **When the prefill is served before the live changes.** In every run of registrations, the
prefill service, the dispatcher and the consumers, under any interleaving and any lost calls:
where the prefill is published in order, a call that returns a live message leaves no message of
the prefill undelivered or unacknowledged. -/
theorem prefill_before_live (env : Env) (w : World) (jobs : Nat → Job) (i : Nat) (name : String)
    (rounds : Nat) (pop : Bool) (ls : Schedule) (f : Fault Outage) {d : System}
    {m : ProvisioningMessage} (hjobs : ∀ j, (jobs j).Delivers)
    (hjob : jobs i = .getNext name rounds pop) (hw : PrefillFirst w name)
    (hmeets : (System.start env w jobs).Along (serve env) (PublishesInOrder name)
      (ls ++ [(i, f)]))
    (hrun : (System.start env w jobs).run (serve env) (ls ++ [(i, f)]) = some d)
    (hret : d.prog i = .pure (.message (some m))) : ServedInOrder i name m d := by
  have hstart : InOrder name (System.start env w jobs) :=
    ⟨fun j => uses_delivers (hjobs j), hw,
      fun j hheard => absurd hheard (Config.not_heard_init _ _)⟩
  obtain ⟨c, hc, hlast, hs⟩ := Config.run_last (P := InOrder name)
    (fun _ _ _ hc hmeets hs => hc.step hmeets hs) hstart hmeets hrun
  have hrunning : ¬ (c.prog i).Finished := by
    obtain ⟨op, k, hp, -⟩ := Config.step_cases hs
    rw [hp]
    exact not_finished_await op k
  have hguarded := Config.run_guarded (i := i) (S := serve env)
    (by rw [System.start_prog, hjob]; exact guarded_getNext_fetches name rounds pop m) hrun
  rcases hguarded with hg | ⟨ev, hev, htid, msg, hcarries, hfetches⟩
  · rw [hret] at hg
    exact absurd rfl hg
  · refine ⟨msg, ⟨ev, hev, htid, hfetches⟩, hcarries, fun hmain => ?_⟩
    exact hc.step_drained hlast hs ⟨ev, hev, htid, msg, hmain, hfetches⟩ hrunning

/-! ## The dispatcher is faster than the prefill -/

-- The reports of the runs below are requests that the app evaluates.
attribute [local semireducible] receive

/-- "a" is registered with a prefill, the dispatcher sends a change of a user to it, the prefill
service does all of its work, and the consumer asks. -/
def earlyDispatch : List Job :=
  [.create "s" .sample, .updateMapping, .postEvent .sample, .dispatch, .prefill,
    .getNext "a" 0 false]

def earlyDispatchSchedule : Schedule :=
  [(0, 8), (1, 3), (2, 1), (3, 4), (4, 11), (5, 5)].flatMap fun (i, steps) =>
    List.replicate steps (i, .ok)

/-- Is it the live message that the event hands out? -/
def handsOutLive (ev : Event Op Op.Res CallError Outage World) : Bool :=
  match ev.op, ev.heard with
  | .fetch _ _, .ok msg => msg.subject == mainSubject "a"
  | _, _ => true

theorem subject_of_handsOutLive {ev : Event Op Op.Res CallError Outage World} {msg : Msg}
    (h : Fetches "a" msg ev.op ev.heard) (hlive : handsOutLive ev = true) :
    msg.subject = mainSubject "a" := by
  obtain ⟨tid, op, fault, before, heard⟩ := ev
  cases op with
  | fetch stream durable =>
    cases heard with
    | ok m =>
      rw [← h.2.2]
      exact beq_iff_eq.mp hlive
    | error e => exact h.elim
  | _ => exact h.elim

/-- The prefill has succeeded, and the consumer is handed the change before the user it changes. -/
theorem live_before_prefill : ∃ d m p s,
    (System.start .sample .prepared (Job.pool earlyDispatch)).run (serve .sample)
      (earlyDispatchSchedule ++ [(5, .ok)]) = some d ∧
    d.prog 4 = .pure .finished ∧ d.prog 5 = .pure (.message (some m)) ∧
    (d.hist.all fun ev => ev.tid != 5 || handsOutLive ev) = true ∧
    d.world.streams (streamKey "a") = some s ∧ p ∈ s.msgs ∧ p.subject = prefillSubject "a" ∧
    p.seq ∉ s.acked (durableKey "a") :=
  ⟨_, _, _, _, rfl, rfl, rfl, rfl, rfl, List.mem_cons_of_mem _ List.mem_cons_self, rfl, nofun⟩

theorem not_prefill_before_live : ¬ ∀ (env : Env) (w : World) (jobs : Nat → Job) (i : Nat)
    (name : String) (rounds : Nat) (pop : Bool) (ls : Schedule) (f : Fault Outage) (d : System)
    (m : ProvisioningMessage), (∀ j, (jobs j).Delivers) → jobs i = .getNext name rounds pop →
    PrefillFirst w name →
    (System.start env w jobs).run (serve env) (ls ++ [(i, f)]) = some d →
    d.prog i = .pure (.message (some m)) → ServedInOrder i name m d := by
  intro h
  obtain ⟨d, m, p, s, hrun, -, hret, hlive, hs, hp, hsub, hout⟩ := live_before_prefill
  obtain ⟨msg, ⟨ev, hev, htid, hfetches⟩, -, hdrained⟩ :=
    h .sample .prepared _ 5 "a" 0 false _ .ok d m
      (Job.pool_forall (by simp [earlyDispatch, Job.Delivers]) trivial) rfl nofun hrun hret
  refine hout (hdrained ?_ s hs p hp hsub)
  have hmain := List.all_eq_true.mp hlive ev hev
  rw [htid] at hmain
  exact subject_of_handsOutLive hfetches (by simpa using hmain)

/-! ## The prefill is faster than the dispatcher -/

/-- The consumer asks twice; the first time it takes the message out. -/
def lateDispatch : List Job :=
  [.create "s" .sample, .prefill, .updateMapping, .postEvent .sample, .dispatch,
    .getNext "a" 0 true, .getNext "a" 0 false]

def lateDispatchSchedule : Schedule :=
  [(0, 8), (1, 11), (2, 3), (3, 1), (4, 4), (5, 7), (6, 5)].flatMap fun (i, steps) =>
    List.replicate steps (i, .ok)

def Op.publishesTo (subject stream : String) : Op → Bool
  | .publish subject' _ stream' => subject' == subject && stream' == stream
  | _ => false

def Op.fetchesFrom (stream : String) : Op → Bool
  | .fetch stream' _ => stream' == stream
  | _ => false

/-- The prefill is published into a stream without live messages from which nothing was taken. -/
def PublishesFirst (name : String) (c : System) (l : Nat × Fault Outage) : Prop :=
  (c.prog l.1).next?.any (Op.publishesTo (prefillSubject name) (streamKey name)) = true →
    (∀ s ∈ c.world.streams (streamKey name), ∀ m ∈ s.msgs, m.subject ≠ mainSubject name) ∧
    ∀ ev ∈ c.hist, ev.op.fetchesFrom (streamKey name) = false

instance (name : String) (c : System) (l : Nat × Fault Outage) :
    Decidable (PublishesFirst name c l) :=
  inferInstanceAs (Decidable (_ → _))

theorem PublishesFirst.inOrder {name : String} {c : System} {l : Nat × Fault Outage}
    (h : PublishesFirst name c l) : PublishesInOrder name c l := by
  intro payload hnext _
  have hpublishes : (c.prog l.1).next?.any
      (Op.publishesTo (prefillSubject name) (streamKey name)) = true := by
    rw [hnext]
    simp [Op.publishesTo]
  obtain ⟨hempty, hnone⟩ := h hpublishes
  refine ⟨fun s hs m hm hmain => absurd hmain (hempty s hs m hm), fun j hheard => ?_⟩
  obtain ⟨ev, hev, -, msg, -, hfetches⟩ := hheard
  obtain ⟨tid, op, fault, before, heard⟩ := ev
  have hspared := hnone _ hev
  cases op with
  | fetch stream durable =>
    cases heard with
    | ok m =>
      rw [show stream = streamKey name from hfetches.1] at hspared
      exact absurd hspared (by simp [Op.fetchesFrom])
    | error e => exact hfetches.elim
  | _ => exact hfetches.elim

theorem prefill_before_live_sample : ∃ d p s,
    (System.start .sample .prepared (Job.pool lateDispatch)).run (serve .sample)
      (lateDispatchSchedule ++ [(6, .ok)]) = some d ∧
    d.prog 5 = .pure (.message (some p)) ∧ p.message.publisherName = .udmPreFill ∧
    ServedInOrder 6 "a" ⟨.sample, 2, 1⟩ d ∧
    d.world.streams (streamKey "a") = some s ∧ 1 ∈ s.acked (durableKey "a") := by
  have hdelivers : ∀ j, (Job.pool lateDispatch j).Delivers :=
    Job.pool_forall (by simp [lateDispatch, Job.Delivers]) trivial
  have hfirst : (System.start .sample .prepared (Job.pool lateDispatch)).Along (serve .sample)
      (PublishesFirst "a") (lateDispatchSchedule ++ [(6, .ok)]) := by decide +kernel
  refine ⟨_, _, _, rfl, rfl, rfl, ?_, rfl, List.mem_singleton_self _⟩
  exact prefill_before_live .sample .prepared (Job.pool lateDispatch) 6 "a" 0 false
    lateDispatchSchedule .ok hdelivers rfl nofun (hfirst.mono fun c l h => h.inOrder) rfl rfl

end Provisioning
