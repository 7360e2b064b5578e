import Provisioning.Model.Calls

/-!
# Every record is stored under its name

A registration stores its record under the name that is in it. Whoever updates a record has read it
under the name it writes it back to, so it could only break this if it was broken before.

## Two halves that need each other

The second sentence is an argument about a run, and it is circular when told about one step. That
the state is in order after a step depends on the record the job puts back; that record was read
some steps ago, and was in order then because the state was; but the job keeps it in a variable of
its own, which the state knows nothing about. So the invariant has a half for the programs.
`KeepsNames` says of a program, in whatever way it may go on, that it puts a misnamed record only
after it has *read* one. A state that is in order never answers with a misnamed record, so a step
keeps the half of the programs; and as nothing misnamed is put, it keeps the half of the state.

`Guarded` is made for this: `Misnamed` ends the obligation, `PutsMisnamed` is what must not come
before, and the results of the programs are left out of it with `fun _ => False`.
-/

namespace Provisioning

open Await Store Prog

/-- Every record is stored under its name. -/
def WellNamed (w : World) : Prop := ∀ n sub, w.record n = some sub → sub.name = n

/-- A record is read whose name is another. -/
def Misnamed : (op : Op) → Except CallError op.Res → Prop
  | .kvGet .subscriptions key, .ok e => e.value.name ≠ key
  | _, _ => False

/-- A record is written under another name. -/
def PutsMisnamed : Op → Prop
  | .kvPut .subscriptions key sub => sub.name ≠ key
  | _ => False

/-- A program writes a record under another name only after it has read such a one. -/
abbrev KeepsNames {α : Type} (p : Coro α) : Prop := p.Guarded Misnamed PutsMisnamed fun _ => False

variable {env : Env} {α β : Type}

/-! ## The programs

Only two of the jobs put a record that they have read, the status update and the prefill service
that asks for one. They are walked through; of all the others it is enough that none of their calls
puts a misnamed record. -/
theorem KeepsNames.bind {p : Coro α} {f : α → Coro β} (hp : KeepsNames p)
    (hf : ∀ a, KeepsNames (f a)) : KeepsNames (p.bind f) :=
  Guarded.bind hp (fun a _ => hf a) fun _ _ => id

theorem KeepsNames.tryCatch {p : Coro α} {h : Exc → Coro α} (hp : KeepsNames p)
    (hh : ∀ e, KeepsNames (h e)) : KeepsNames (p.tryCatch h) :=
  Guarded.tryCatch hp (fun _ _ => id) fun e _ => hh e

theorem keepsNames_pure (a : α) : KeepsNames (.pure a) := id

theorem keepsNames_request (op : Op) (h : ¬ PutsMisnamed op) : KeepsNames (request op) :=
  guarded_request.mpr ⟨h, fun _ _ => id, fun _ _ => id⟩

/-- **The update puts back what it has read**, with another status under the same name. -/
theorem keepsNames_setStatus (name : String) (status : FillQueueStatus) :
    KeepsNames (setSubscriptionQueueStatus name status) := by
  apply guarded_getValue_bind.mpr
  refine ⟨id, ?_, fun _ => id, fun _ _ _ => id⟩
  intro e he
  have hname : e.value.name = name := not_not.mp he
  exact keepsNames_request _ fun hput => hput hname

/-- The report of the prefill service is such an update, of the record that it reaches. -/
theorem keepsNames_updateStatus (name : String) (status : FillQueueStatus) :
    KeepsNames (updateSubscriptionQueueStatus env name status) := by
  rcases updateSubscriptionQueueStatus_cases env name status with
    ⟨other, -, heq⟩ | ⟨-, code, heq⟩
  · rw [heq]
    have hroute : KeepsNames (updateSubscriptionPrefillStatus other status) := by
      apply KeepsNames.bind (p := orNotFound (setSubscriptionQueueStatus other status))
      · exact guarded_orNotFound (R := fun _ => False) (keepsNames_setStatus other status)
      · exact fun _ => keepsNames_pure _
    apply KeepsNames.bind
    · exact hroute.tryCatch fun e => keepsNames_pure (statusOf (.error e))
    · intro code
      split
      · exact id
      · exact id
  · rw [heq]
    exact id

/-- What the prefill publishes are no records. -/
theorem keepsNames_fetchUdm (name topic : String) : KeepsNames (fetchUdm env name topic) := by
  apply (keepsNames_request .getObjectTypes id).bind
  intro udmModules
  cases matchingTypes env topic udmModules with
  | error e => exact id
  | ok udmMatch =>
    apply Guarded.loop
    intro objectType _
    apply (keepsNames_request (.listObjects objectType) id).bind
    intro urls
    apply Guarded.loop
    intro url _
    apply (keepsNames_request (.getObject url) id).bind
    intro obj
    exact (keepsNames_request (.publish ..) id).bind fun _ => id

/-- Filling a queue updates the status on the way. -/
theorem keepsNames_fillQueue (message : PrefillMessage) : KeepsNames (fillQueue env message) := by
  apply (keepsNames_request (.purgeStream ..) id).bind
  intro _
  apply Guarded.loop
  intro realmTopic _
  split
  · exact (keepsNames_updateStatus ..).bind fun _ => keepsNames_fetchUdm ..
  · exact id

theorem keepsNames_handlePrefill (message : Msg) : KeepsNames (handlePrefill env message) := by
  unfold handlePrefill validatedPrefill
  cases message.payload with
  | message _ => exact id
  | simple _ _ => exact id
  | prefill m =>
    simp only [pure_eq, bind_eq, bind_pure]
    split
    · apply KeepsNames.bind
      · exact (keepsNames_request (.publish ..) id).bind fun _ => keepsNames_pure ()
      · exact fun _ => keepsNames_updateStatus ..
    · exact (keepsNames_fillQueue m).bind fun _ => keepsNames_updateStatus ..

theorem keepsNames_prefillOnce : KeepsNames (prefillOnce env) := by
  apply KeepsNames.bind
  · apply KeepsNames.tryCatch
    · exact (keepsNames_request (.fetch ..) id).bind fun msg => keepsNames_pure (some msg)
    · intro e
      split
      · exact id
      · exact id
  · intro found
    cases found with
    | none => exact id
    | some message =>
      apply KeepsNames.bind
      · apply (keepsNames_handlePrefill message).tryCatch
        intro e
        exact (keepsNames_request (.nak message) id).bind fun _ => id
      · exact fun _ => keepsNames_request (.ack message) id

/-- Most jobs write no record at all. -/
theorem not_putsMisnamed {job : Job} {op : Op} (h : JobCall job op) (hprefill : job ≠ .prefill)
    (hstatus : ∀ name status, job ≠ .setStatus name status) : ¬ PutsMisnamed op := by
  cases job with
  | create salt sub =>
    cases h with
    | putRecord => exact fun h => h rfl
    | _ => exact id
  | delete settings salt credentials name =>
    cases h with
    | auth h => cases h <;> exact id
    | delete h => cases h <;> exact id
  | deleteService name => cases h <;> exact id
  | setStatus name status => exact absurd rfl (hstatus name status)
  | authenticate salt credentials subscriptionName => cases h <;> exact id
  | getNext name rounds pop =>
    cases h with
    | message h => cases h <;> exact id
    | _ => exact id
  | postStatus name seqNum status => cases h <;> exact id
  | postEvent message => exact h ▸ id
  | prefill => exact absurd rfl hprefill
  | dispatch => cases h <;> exact id
  | updateMapping => cases h <;> exact id
  | dispatcherStart =>
    cases h with
    | mapping h => cases h <;> exact id
    | _ => exact id
  | prefillStart =>
    rcases h with h | h
    · cases h <;> exact id
    · cases h <;> exact id
  | transform => cases h <;> exact id
  | ackWaitExpires stream durable => exact h ▸ id
  | passwordCacheExpires password hash subscription => exact h ▸ id
  | idle => exact h.elim

/-- **Every job keeps the names.** -/
theorem keepsNames_program (job : Job) : KeepsNames (job.program env) := by
  -- the two jobs that update, and then the rest
  by_cases hprefill : job = .prefill
  · subst hprefill
    exact keepsNames_prefillOnce.bind fun _ => keepsNames_pure Reply.finished
  by_cases hstatus : ∃ name status, job = .setStatus name status
  · obtain ⟨name, status, rfl⟩ := hstatus
    exact (keepsNames_setStatus name status).bind fun _ => keepsNames_pure Reply.finished
  · apply (uses_program env job).guarded
    intro op hop
    exact not_putsMisnamed hop hprefill fun name status h => hstatus ⟨name, status, h⟩

/-! ## A run -/

/-! From here on it is about one step of a system, and `NamesKept.next` is all that the proofs about
runs use of this. -/

/-- What is read of a bucket in order is in order. A lost call reads nothing. -/
theorem WellNamed.heard {w : World} (h : WellNamed w) {i : Nat} {key : String} {f : Fault Outage}
    {e : Entry Subscription} (he : (serve env).heard i (.kvGet .subscriptions key) w f = .ok e) :
    e.value.name = key := by
  obtain ⟨-, hanswer⟩ := Server.heard_eq_ok he
  rw [serve_answer] at hanswer
  cases hget : (w.bucket .subscriptions).get? key with
  | none =>
    simp only [answer, hget] at hanswer
    cases hanswer
  | some e' =>
    simp only [answer, hget] at hanswer
    cases hanswer
    apply h
    unfold World.record Store.Bucket.value?
    rw [hget]
    rfl

/-- The answers of a state in order end no obligation. -/
theorem WellNamed.not_misnamed {w : World} (h : WellNamed w) (i : Nat) (op : Op)
    (f : Fault Outage) : ¬ Misnamed op ((serve env).heard i op w f) := by
  cases op with
  | kvGet b key =>
    cases b with
    | subscriptions =>
      cases he : (serve env).heard i (.kvGet .subscriptions key) w f with
      | ok e => exact not_not.mpr (h.heard he)
      | error x => exact id
    | credentials => exact id
    | cache => exact id
  | _ => exact id

/-- A call that does not put a misnamed record leaves the state in order. -/
theorem WellNamed.left {w : World} (h : WellNamed w) {i : Nat} {op : Op} {f : Fault Outage}
    (hop : ¬ PutsMisnamed op) : WellNamed ((serve env).left i op w f) := by
  apply Server.left_preserves h
  intro _ n sub hn
  rw [serve_answer] at hn
  rcases record_answer env i op w n with hsame | ⟨sub', rfl, hput⟩ | ⟨rfl, hgone⟩
  · exact h n sub (hsame ▸ hn)
  · rw [hput] at hn
    rw [← Option.some.inj hn]
    exact not_not.mp hop
  · rw [hgone] at hn
    cases hn

/-- The records keep their names, and the programs keep to that. -/
structure NamesKept (c : System) : Prop where
  named : WellNamed c.world
  programs : ∀ j, KeepsNames (c.prog j)

theorem NamesKept.next {c : System} (h : NamesKept c) {i : Nat} {f : Fault Outage} {op : Op}
    {k : Except CallError op.Res → Coro Reply} (hp : c.prog i = .await op k) :
    NamesKept (c.next (serve env) i f op k) := by
  refine ⟨?_, ?_⟩
  · apply h.named.left
    exact (hp ▸ h.programs i : KeepsNames (Prog.await op k)).1
  · exact Config.guarded_next h.programs hp (h.named.not_misnamed i op f)

end Provisioning
