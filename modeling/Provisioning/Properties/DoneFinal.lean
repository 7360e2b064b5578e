import Provisioning.Properties.RetryLimit

/-!
# Whether `done` is final

`server/core/prefill/service/udm_prefill.py`. A round stores the status `done` and then
acknowledges its request: two effects on two systems. What a round does after the first of them is
nothing but to settle the request. A round that has not got as far knows nothing of it, and begins
with the purge, whatever the status says by then.

## What a run needs

That a round has only the settlement left once it has stored `done` is a fact about its program
(`thereafter_prefill`), and it holds of each round by itself. In a run it is carried along as two
cases for each round: it has not stored `done`, or it has nothing but settlements left.

Another attempt at the same request is another program, of which this says nothing; and there is
nothing in it that would look at the status first. So the condition is that such an attempt takes no
further step.
-/

namespace Provisioning

open Await Store Prog

variable (jobs : Nat → Job) (name : String) (seq : Nat)

/-! ## The attempts at a request -/

def Job.isPrefill : Job → Bool
  | .prefill => true
  | _ => false

/-- Job `i` is a round of the prefill service that was handed the request. -/
def Attempts (c : System) (i : Nat) : Prop :=
  (jobs i).isPrefill = true ∧ c.Heard i fun op a => worksOn seq op a = true

/-- Job `i` has stored `done` for the subscription. -/
def HasStoredDone (c : System) (i : Nat) : Prop :=
  ∃ ev ∈ c.hist, ev.tid = i ∧ SetsDone name ev.op ∧ ev.fault.Lands

/-- The processing of the request has stored `done`. -/
def DoneStored (c : System) : Prop :=
  ∃ ev ∈ c.hist, Attempts jobs seq c ev.tid ∧ SetsDone name ev.op ∧ ev.fault.Lands

/-- What a consumer that has started reading would notice: the call purges the prefill, adds to it,
or changes the stored status. -/
def Restarts (w : World) (op : Op) : Prop :=
  (∃ stream, op = .purgeStream stream (prefillSubject name)) ∨
    (∃ payload stream, op = .publish (prefillSubject name) payload stream) ∨
      ∃ sub : Subscription, op = .kvPut .subscriptions name sub ∧
        (w.record name).map (·.prefillQueueStatus) ≠ some sub.prefillQueueStatus

/-- Once `done` is stored, no step of an attempt at the request restarts the prefill. -/
def KeepsDone (c : System) (l : Nat × Fault Outage) : Prop :=
  DoneStored jobs name seq c → Attempts jobs seq c l.1 →
    ∀ op, (c.prog l.1).next? = some op → l.2.Lands → ¬ Restarts name c.world op

/-- Once `done` is stored, the only attempts at the request that go on are those that have stored
it. -/
def NotTakenUpAgain (c : System) (l : Nat × Fault Outage) : Prop :=
  DoneStored jobs name seq c → Attempts jobs seq c l.1 → HasStoredDone name c l.1

/-! ## What a round does after it stored `done` -/

variable {jobs name seq} {env : Env}

/-- The call settles a request. -/
def Settles (op : Op) : Prop := ∃ msg, op = .ack msg ∨ op = .nak msg

theorem not_setsDone_settles {op : Op} (h : Settles op) : ¬ SetsDone name op := by
  obtain ⟨msg, rfl | rfl⟩ := h
  · exact not_setsDone_plain rfl
  · exact not_setsDone_plain rfl

theorem not_restarts_settles {w : World} {op : Op} (h : Settles op) : ¬ Restarts name w op := by
  intro hrestarts
  obtain ⟨msg, rfl | rfl⟩ := h
  all_goals
    rcases hrestarts with ⟨stream, heq⟩ | ⟨payload, stream, heq⟩ | ⟨sub, heq, -⟩ <;> cases heq

theorem thereafter_route (other : String) (status : FillQueueStatus) :
    (internalRequest (updateSubscriptionPrefillStatus other status)).Thereafter
      (SetsDone name) Settles := by
  have hset : (setSubscriptionQueueStatus other status).Thereafter (SetsDone name) Settles := by
    apply Thereafter.after (uses_getValue (not_setsDone_plain rfl))
    intro found
    cases found with
    | none => trivial
    | some sub => exact thereafter_call ..
  have hroute : (updateSubscriptionPrefillStatus other status).Thereafter
      (SetsDone name) Settles := by
    refine Thereafter.bind (hset.tryCatch (fun e => ?_) fun e => ?_) (fun _ => trivial)
      fun _ => trivial
    · cases e <;> trivial
    · cases e <;> trivial
  refine Thereafter.bind (hroute.tryCatch (fun _ => trivial) fun _ => trivial)
    (fun code => ?_) fun code => ?_
  · show (if code ≥ 400 then _ else _ : Coro Unit).Uses Settles
    split <;> trivial
  · show (if code ≥ 400 then _ else _ : Coro Unit).Thereafter (SetsDone name) Settles
    split <;> trivial

theorem thereafter_status (reported : String) (status : FillQueueStatus) :
    (updateSubscriptionQueueStatus env reported status).Thereafter (SetsDone name) Settles := by
  rcases updateSubscriptionQueueStatus_cases env reported status with
    ⟨other, -, heq⟩ | ⟨-, code, heq⟩
  · rw [heq]
    exact thereafter_route other status
  · rw [heq]
    trivial

theorem unsets_fillQueue (r : PrefillMessage) :
    (fillQueue env r).Uses fun op => ¬ SetsDone name op := by
  refine Uses.bind (uses_request (not_setsDone_plain rfl)) fun _ => Uses.forEach ?_
  intro rt _
  have hrunning : FillQueueStatus.running ≠ .done := nofun
  split
  · exact Uses.bind (unsets_status _ hrunning) fun _ => unsets_fetchUdm _ _
  · trivial

theorem thereafter_handlePrefill (msg : Msg) :
    (handlePrefill env msg).Thereafter (SetsDone name) Settles := by
  unfold handlePrefill validatedPrefill
  cases msg.payload with
  | message m => trivial
  | simple publisherName body => trivial
  | prefill r =>
    simp only [pure_eq, bind_eq, bind_pure]
    split
    · exact Thereafter.after (uses_addMessage not_setsDone_publish) fun _ => thereafter_status ..
    · exact Thereafter.after (unsets_fillQueue r) fun _ => thereafter_status ..

/-- **Once it has stored `done`, a round has nothing left to do but to settle its request.** -/
theorem thereafter_prefill :
    (Job.prefill.program env).Thereafter (SetsDone name) Settles := by
  refine Thereafter.bind ?_ (fun _ => trivial) fun _ => trivial
  apply Thereafter.after (uses_getOneMessage (not_setsDone_plain rfl))
  intro found
  cases found with
  | none => trivial
  | some msg =>
    have hrefuse : ∀ e : Exc, (Prog.bind (request (.nak msg)) fun _ =>
        (.throw e : Coro Unit)).Uses Settles := fun e =>
      Uses.bind (uses_request ⟨msg, Or.inr rfl⟩) fun _ => trivial
    have haccept : (request (.ack msg)).Uses Settles := uses_request ⟨msg, Or.inl rfl⟩
    refine Thereafter.bind ((thereafter_handlePrefill msg).tryCatch hrefuse fun e => ?_)
      (fun _ => haccept) fun _ => thereafter_call ..
    exact ((hrefuse e).mono fun op => not_setsDone_settles).thereafter

/-! ## Every run -/

/-- **Where the request is not taken up again, `done` is final.** In any run of any jobs, any of
which may stop anywhere: where no attempt goes on that has not itself stored `done`, none restarts
the prefill. -/
theorem done_final (env : Env) (w : World) (jobs : Nat → Job) (name : String) (seq : Nat)
    (ls : Schedule)
    (honce : (System.start env w jobs).Along (serve env) (NotTakenUpAgain jobs name seq) ls) :
    (System.start env w jobs).Along (serve env) (KeepsDone jobs name seq) ls := by
  have hstep : ∀ c l d,
      (∀ i, (jobs i).isPrefill = true → c.LeftWith (SetsDone name) Settles i) →
      NotTakenUpAgain jobs name seq c l → c.step (serve env) l = some d →
      ∀ i, (jobs i).isPrefill = true → d.LeftWith (SetsDone name) Settles i :=
    fun c l d h _ hs i hi => (h i hi).step hs
  have hstart : ∀ i, (jobs i).isPrefill = true →
      (System.start env w jobs).LeftWith (SetsDone name) Settles i := by
    intro i hi
    apply Config.leftWith_init
    cases hjob : jobs i with
    | prefill => exact thereafter_prefill
    | _ => rw [hjob] at hi; cases hi
  have halways := Config.always_of_invariant hstep hstart honce
  apply (Config.along_and (halways.along fun c l h => h) honce).mono
  intro c l h hdone hattempts op hnext _
  obtain ⟨ev, hev, htid, hset, -⟩ := h.2 hdone hattempts
  exact not_restarts_settles (((h.1 l.1 hattempts.1).2 ⟨ev, hev, htid, hset⟩).of_next? hnext)

/-! ## A round that dies before it has acknowledged -/

def setsDone (name : String) : Op → Bool
  | .kvPut .subscriptions key sub => key == name && sub.prefillQueueStatus == .done
  | _ => false

theorem setsDone_iff {op : Op} : setsDone name op = true ↔ SetsDone name op := by
  constructor
  · intro h
    cases op with
    | kvPut b key value =>
      cases b with
      | subscriptions =>
        have hboth : key = name ∧ value.prefillQueueStatus = .done := by simpa [setsDone] using h
        exact ⟨value, hboth.2, by rw [hboth.1]⟩
      | credentials => cases h
      | cache => cases h
    | _ => cases h
  · intro h
    obtain ⟨sub, hdone, rfl⟩ := h
    simp [setsDone, hdone]

instance (name : String) (op : Op) : Decidable (SetsDone name op) :=
  decidable_of_iff _ setsDone_iff

instance (jobs : Nat → Job) (seq : Nat) (c : System) (i : Nat) :
    Decidable (Attempts jobs seq c i) :=
  inferInstanceAs (Decidable (_ ∧ ∃ ev ∈ c.hist, _ ∧ _))

instance (jobs : Nat → Job) (name : String) (seq : Nat) (c : System) :
    Decidable (DoneStored jobs name seq c) :=
  inferInstanceAs (Decidable (∃ ev ∈ c.hist, _ ∧ _))

instance (jobs : Nat → Job) (name : String) (seq : Nat) (c : System) (l : Nat × Fault Outage) :
    Decidable (NotTakenUpAgain jobs name seq c l) :=
  inferInstanceAs (Decidable (_ → _ → ∃ ev ∈ c.hist, _ ∧ _))

/-- A round, the ack wait of its delivery, and another round. -/
def twoRounds : Nat → Job :=
  Job.pool [.prefill, .ackWaitExpires requestQueue requestWorker, .prefill]

/-- The first round gets as far as `n` calls, and the second one takes `m`. -/
def twoRoundsSteps (n m : Nat) : Schedule :=
  List.replicate n (0, .ok) ++ [(1, .ok)] ++ List.replicate m (2, .ok)

-- The reports of the runs below are requests that the app evaluates.
attribute [local semireducible] receive

/-- The first round dies among the objects; the second one stores `done` and acknowledges. -/
theorem done_final_retry :
    (System.start .sample .registered twoRounds).Along (serve .sample)
      (KeepsDone twoRounds "a" 1) (twoRoundsSteps 8 11) :=
  done_final .sample .registered twoRounds "a" 1 (twoRoundsSteps 8 11) (by decide +kernel)

/-- The first round dies between the status and the acknowledgement; the second one begins with the
purge. -/
theorem not_done_final : ¬ ∀ (env : Env) (w : World) (jobs : Nat → Job) (name : String)
    (seq : Nat) (ls : Schedule),
    (System.start env w jobs).Along (serve env) (KeepsDone jobs name seq) ls := by
  intro h
  obtain ⟨hfront, hlast⟩ := Config.along_append.mp
    (h .sample .registered twoRounds "a" 1 (twoRoundsSteps 10 1 ++ [(2, .ok)]))
  obtain ⟨c, hrun, hdone, hattempts, hnext⟩ : ∃ c,
      (System.start .sample .registered twoRounds).run (serve .sample) (twoRoundsSteps 10 1) =
        some c ∧
      DoneStored twoRounds "a" 1 c ∧ Attempts twoRounds 1 c 2 ∧
      (c.prog 2).next? = some (.purgeStream (streamKey "a") (prefillSubject "a")) :=
    ⟨_, rfl, by decide +kernel, by decide +kernel, rfl⟩
  exact (hlast c hrun).1 hdone hattempts _ hnext trivial (Or.inl ⟨_, rfl⟩)

end Provisioning
