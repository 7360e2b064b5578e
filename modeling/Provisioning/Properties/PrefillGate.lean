import Provisioning.Model.Calls

/-!
# The gate in front of a subscription's messages

A consumer gets nothing before the prefill of its subscription is done. `getNextMessage` asks the
record for the status, and once the stream has been found empty it remembers in the memory of the
process that it need not ask again. That memory knows the name of the subscription and nothing
else: the record can be deleted and written anew, or a redelivered request to the prefill service
can set its status back, and the gate stays open.

`done_during_next` says that this is the only way through, apart from the record being gone while a
call is past the gate, or by the time the memory lets one pass. The invariant is about the memory:
as long as no status but `done` is written while it is set, or while a call that may still set it is
on its way, whatever record there is has its prefill done (`MemoryRight`). That is why the condition
looks at what is written and at who is inside, and never at the status that is stored.
-/

namespace Provisioning

open Await Store Prog

/-- The record of `name` exists and its prefill is done. -/
def PrefillDone (w : World) (name : String) : Prop :=
  ∃ e, (w.bucket .subscriptions).get? name = some e ∧ e.value.prefillQueueStatus = .done

/-- The record of `name` is there before and after, and was not deleted in between. -/
def SameRegistration (w w' : World) (name : String) : Prop :=
  ∃ e e', (w.bucket .subscriptions).get? name = some e ∧
    (w'.bucket .subscriptions).get? name = some e' ∧ e'.created = e.created

/-- An answer that lets `getNextMessage` go on to the stream. -/
def OpensGate (name : String) : (op : Op) → Except CallError op.Res → Prop
  | .prefillDoneGet n, .ok true => n = name
  | .kvGet .subscriptions n, .ok e => n = name ∧ e.value.prefillQueueStatus = .done
  | _, _ => False

/-- The call writes the record of `name` with a status other than `done`. -/
def writesUndone (name : String) : Op → Bool
  | .kvPut .subscriptions key sub => key == name && sub.prefillQueueStatus != .done
  | _ => false

/-- The call asks the memory about `name`. -/
def asksMemory (name : String) : Op → Bool
  | .prefillDoneGet n => n == name
  | _ => false

/-- The job asks for the next message of `name`. -/
def Job.consumes (name : String) : Job → Bool
  | .getNext n _ _ => n == name
  | _ => false

/-- Every consumer of `name` that is past the gate is over. -/
def NobodyInside (jobs : Nat → Job) (name : String) (c : System) : Prop :=
  ∀ ev ∈ c.hist, (jobs ev.tid).consumes name = true → OpensGate name ev.op ev.heard →
    (c.prog ev.tid).Finished

/-- What a served call has to find, for the call `i` of `getNextMessage` on `name`. -/
def GateHolds (jobs : Nat → Job) (i : Nat) (name : String) (c : System) (l : Nat × Fault Outage) :
    Prop :=
  ∀ op ∈ (c.prog l.1).next?, l.2.Lands →
    -- No status but `done` is written while the process remembers one, or is about to.
    (writesUndone name op = true →
      c.world.prefillDone name = false ∧ NobodyInside jobs name c) ∧
    -- The record is not deleted while the call is past the gate, …
    (deletesRecord name op = true → c.Heard i (OpensGate name) → (c.prog i).Finished) ∧
    -- …and there is one when the memory lets it pass.
    (l.1 = i → asksMemory name op = true → c.world.prefillDone name = true →
      c.world.record name ≠ none)

/-- The status of the registration of `name` that is there now was `done` at some moment of call
`i`. -/
def DoneDuring (i : Nat) (name : String) (c : System) : Prop :=
  ∃ ev ∈ c.hist, ev.tid = i ∧ PrefillDone ev.before name ∧
    SameRegistration ev.before c.world name

def ReturnsMessage (r : Except Exc Reply) : Prop := ∃ m, r = .ok (.message (some m))

/-! ## What the consumer's call has to hear -/

variable {env : Env}

theorem guarded_getSubscriptionQueueStatus (name : String) :
    (getSubscriptionQueueStatus name).Guarded (OpensGate name) (· = .prefillDoneSet name)
      fun r => r = .ok .done := by
  refine guarded_getValue_bind.mpr ⟨nofun, fun e hM => ?_, fun _ => nofun, fun _ _ _ => nofun⟩
  intro hdone
  exact hM ⟨rfl, Except.ok.inj hdone⟩

theorem guarded_checkSubscriptionStatus (name : String) (rounds : Nat) :
    (checkSubscriptionStatus name rounds).Guarded (OpensGate name) (· = .prefillDoneSet name)
      fun r => r = .ok .done := by
  induction rounds with
  | zero => exact guarded_getSubscriptionQueueStatus name
  | succ rounds ih =>
    refine Guarded.bind (guarded_getSubscriptionQueueStatus name) (fun status hstatus => ?_)
      fun _ _ => nofun
    split
    · next hdone => exact absurd (congrArg Except.ok hdone) hstatus
    · exact ih

/-- **A message is returned only past the gate**, and nothing is remembered before it either. -/
theorem guarded_getNextMessage (name : String) (rounds : Nat) (pop : Bool) :
    (getNextMessage name rounds pop).Guarded (OpensGate name) (· = .prefillDoneSet name)
      fun r => ∃ m, r = .ok (some m) := by
  refine guarded_request_bind.mpr ⟨nofun, fun flag hM => ?_, fun _ _ => nofun⟩
  cases flag with
  | true => exact absurd rfl hM
  | false =>
    refine Guarded.bind (guarded_checkSubscriptionStatus name rounds) (fun status hstatus => ?_)
      fun _ _ => nofun
    rw [if_pos fun h => hstatus (congrArg Except.ok h)]
    exact fun h => nomatch h

theorem guarded_getNext (name : String) (rounds : Nat) (pop : Bool) :
    ((Job.getNext name rounds pop).program env).Guarded (OpensGate name) (· = .prefillDoneSet name)
      ReturnsMessage := by
  refine Guarded.bind (guarded_getNextMessage name rounds pop) (fun message hm => ?_)
    fun _ _ => nofun
  intro ⟨m, h⟩
  cases h
  exact hm ⟨m, rfl⟩

/-! ## One step -/

theorem prefillDone_get {tid : Nat} {w : World} {name : String} {e : Entry Subscription}
    (h : (answer env tid (.kvGet .subscriptions name) w).1 = .ok e)
    (hdone : e.value.prefillQueueStatus = .done) : PrefillDone w name := by
  refine ⟨e, ?_, hdone⟩
  simp only [answer] at h
  split at h
  · next e' he' => rw [he', ← Except.ok.inj h]
  · cases h

/-- An entry that is not deleted stays in its lifetime. -/
theorem sameRegistration_answer (env : Env) (tid : Nat) {op : Op} {w w' : World} {name : String}
    (h : SameRegistration w w' name) (hop : op ≠ .kvDelete .subscriptions name) :
    SameRegistration w (answer env tid op w').2 name := by
  obtain ⟨e, e', he, he', hcreated⟩ := h
  rcases bucket_answer env tid op w' .subscriptions with
    hsame | ⟨key, v, rfl, hput⟩ | ⟨key, rfl, hdel⟩
  · exact ⟨e, e', he, by rw [hsame, he'], hcreated⟩
  · by_cases hkey : name = key
    · subst hkey
      refine ⟨e, ⟨v, (w'.bucket .subscriptions).last + 1, e'.created⟩, he, ?_, hcreated⟩
      rw [hput]
      exact Bucket.created_put_self he' v
    · exact ⟨e, e', he, by rw [hput, Bucket.get?_put_of_ne hkey, he'], hcreated⟩
  · have hkey : name ≠ key := fun hkey => hop (by rw [hkey])
    exact ⟨e, e', he, by rw [hdel, Bucket.get?_delete_of_ne hkey, he'], hcreated⟩

theorem sameRegistration_self {w : World} {name : String} (h : PrefillDone w name) :
    SameRegistration w w name := by
  obtain ⟨e, he, -⟩ := h
  exact ⟨e, e, he, he, rfl⟩

/-- An error opens nothing. -/
theorem not_opensGate_error (name : String) (op : Op) (e : CallError) :
    ¬ OpensGate name op (.error e) := by
  intro h
  unfold OpensGate at h
  split at h
  · next hr => cases hr
  · next hr => cases hr
  · exact h

/-! ## What the process remembers -/

theorem consumes_iff {job : Job} {name : String} : job.consumes name = true ↔
    ∃ rounds pop, job = .getNext name rounds pop := by
  constructor
  · intro h
    cases job with
    | getNext n rounds pop =>
      obtain rfl : n = name := beq_iff_eq.mp h
      exact ⟨rounds, pop, rfl⟩
    | _ => cases h
  · intro h
    obtain ⟨rounds, pop, rfl⟩ := h
    exact beq_self_eq_true name

theorem writesUndone_iff {op : Op} {name : String} : writesUndone name op = true ↔
    ∃ sub : Subscription, sub.prefillQueueStatus ≠ .done ∧ op = .kvPut .subscriptions name sub := by
  constructor
  · intro h
    unfold writesUndone at h
    split at h
    · next key sub =>
      rw [Bool.and_eq_true, beq_iff_eq, bne_iff_ne] at h
      exact ⟨sub, h.2, by rw [h.1]⟩
    · cases h
  · intro h
    obtain ⟨sub, hsub, rfl⟩ := h
    simp [writesUndone, hsub]

/-- Whatever record of `name` there is, its prefill is done. -/
def Undisputed (w : World) (name : String) : Prop :=
  ∀ sub, w.record name = some sub → sub.prefillQueueStatus = .done

theorem PrefillDone.undisputed {w : World} {name : String} (h : PrefillDone w name) :
    Undisputed w name := by
  obtain ⟨e, he, hdone⟩ := h
  intro sub hsub
  have hvalue : w.record name = some e.value := congrArg (Option.map Entry.value) he
  rw [← Option.some.inj (hvalue.symm.trans hsub)]
  exact hdone

theorem Undisputed.prefillDone {w : World} {name : String} (h : Undisputed w name)
    (hrecord : w.record name ≠ none) : PrefillDone w name := by
  obtain ⟨sub, hsub⟩ := Option.ne_none_iff_exists'.mp hrecord
  obtain ⟨e, he, rfl⟩ := Bucket.value?_eq_some hsub
  exact ⟨e, he, h _ hsub⟩

theorem undisputed_answer (env : Env) (tid : Nat) {op : Op} {w : World} {name : String}
    (h : Undisputed w name) (hop : ¬ writesUndone name op = true) :
    Undisputed (answer env tid op w).2 name := by
  intro sub hsub
  rcases record_answer env tid op w name with hsame | ⟨sub', rfl, hput⟩ | ⟨-, hgone⟩
  · exact h sub (hsame ▸ hsub)
  · by_contra hundone
    rw [hput] at hsub
    obtain rfl := Option.some.inj hsub
    exact hop (writesUndone_iff.mpr ⟨_, hundone, rfl⟩)
  · rw [hgone] at hsub
    cases hsub

/-- What lets a call pass the gate is right about whatever record there is, if the memory is. -/
theorem undisputed_of_opensGate {tid : Nat} {w : World} {op : Op} {name : String}
    (hM : OpensGate name op (answer env tid op w).1)
    (hmemory : w.prefillDone name = true → Undisputed w name) : Undisputed w name := by
  unfold OpensGate at hM
  split at hM
  · next n hr =>
    subst hM
    exact hmemory (Except.ok.inj hr)
  · next n e hr =>
    obtain ⟨rfl, hdone⟩ := hM
    exact (prefillDone_get hr hdone).undisputed
  · exact hM.elim

/-- The memory is right about whatever record there is, and so are the calls that are past the gate
and may still set it: one that has heard `done` before the record changed would set it too late.
That they are past the gate is all that the memory is ever set for (`waits`), and none but the
consumers set it (`uses`). -/
structure MemoryRight (jobs : Nat → Job) (name : String) (c : System) : Prop where
  uses : ∀ j, (c.prog j).Uses (JobCall (jobs j))
  waits : ∀ j, (jobs j).consumes name = true →
    (c.prog j).Guarded (OpensGate name) (· = .prefillDoneSet name) ReturnsMessage ∨
      c.Heard j (OpensGate name)
  memory : c.world.prefillDone name = true → Undisputed c.world name
  inside : ∀ j, (jobs j).consumes name = true → c.Heard j (OpensGate name) →
    (c.prog j).Finished ∨ Undisputed c.world name

theorem consumes_of_sets {job : Job} {name : String} (h : JobCall job (.prefillDoneSet name)) :
    job.consumes name = true := by
  cases job with
  | getNext n rounds pop =>
    cases h with
    | flagSet => exact beq_self_eq_true name
    | message h => cases h
  | delete settings salt credentials n =>
    cases h with
    | auth h => cases h
    | delete h => cases h
  | prefill =>
    cases h with
    | handle n h =>
      cases h with
      | status status _ h => cases h
  | dispatcherStart =>
    cases h with
    | mapping h => cases h
  | prefillStart => rcases h with h | h <;> cases h
  | idle => exact h.elim
  | _ => cases h

variable {jobs : Nat → Job} {i : Nat} {name : String} {c d : System} {l : Nat × Fault Outage}

theorem memoryRight_start {w : World} (hfresh : w.prefillDone name = false) :
    MemoryRight jobs name (System.start env w jobs) := by
  refine ⟨fun j => uses_program env (jobs j), fun j hj => Or.inl ?_, fun hset => ?_,
    fun j _ hheard => absurd hheard (Config.not_heard_init _ _)⟩
  · obtain ⟨rounds, pop, hjob⟩ := consumes_iff.mp hj
    rw [System.start_prog, hjob]
    exact guarded_getNext name rounds pop
  · rw [show (System.start env w jobs).world = w from rfl, hfresh] at hset
    cases hset

/-- What sets the memory is past the gate, so that the record is right. -/
theorem MemoryRight.undisputed_of_sets (h : MemoryRight jobs name c)
    {k : Except CallError (Op.prefillDoneSet name).Res → Coro Reply} {j : Nat}
    (hp : c.prog j = .await (.prefillDoneSet name) k) : Undisputed c.world name := by
  have hj : (jobs j).consumes name = true :=
    consumes_of_sets ((h.uses j).of_next? (next?_of_await hp))
  rcases h.waits j hj with hguarded | hheard
  · rw [hp] at hguarded
    exact absurd rfl hguarded.1
  · refine (h.inside j hj hheard).resolve_left fun hfin => ?_
    rw [hp] at hfin
    exact not_finished_await _ _ hfin

/-- **One step keeps the memory right.** -/
theorem MemoryRight.step (h : MemoryRight jobs name c) (hmeets : GateHolds jobs i name c l)
    (hs : c.step (serve env) l = some d) : MemoryRight jobs name d := by
  have huses := Config.step_uses h.uses hs
  have hwaits : ∀ j, (jobs j).consumes name = true → _ := fun j hj =>
    Config.step_guarded (h.waits j hj) hs
  have hfinished : ∀ j, (c.prog j).Finished → (d.prog j).Finished := fun j hj =>
    Config.step_finished hj hs
  obtain ⟨op, k, hp, rfl⟩ := Config.step_cases hs
  by_cases hundone : writesUndone name op = true ∧ l.2.Lands
  · -- Another status is written, while nothing is remembered and nobody is inside.
    obtain ⟨hset, hnobody⟩ := (hmeets op (next?_of_await hp) hundone.2).1 hundone.1
    obtain ⟨sub, -, rfl⟩ := writesUndone_iff.mp hundone.1
    have hplain : Op.kvPut .subscriptions name sub ≠ .prefillDoneSet name := nofun
    refine ⟨huses, hwaits, fun hmemory => ?_, fun j hj hheard => Or.inl (hfinished j ?_)⟩
    · rw [Config.next_world, Server.left_of_lands hundone.2, serve_answer,
        prefillDone_answer env l.1 c.world hplain, hset] at hmemory
      cases hmemory
    · rcases Config.heard_next.mp hheard with ⟨-, hopens⟩ | ⟨ev, hev, rfl, hopens⟩
      · exact hopens.elim
      · exact hnobody ev hev hj hopens
  · have hkeep : Undisputed c.world name →
        Undisputed (c.next (serve env) l.1 l.2 op k).world name := fun hw =>
      Server.left_preserves (P := fun w => Undisputed w name) hw fun hlands =>
        undisputed_answer env l.1 hw fun hop => hundone ⟨hop, hlands⟩
    refine ⟨huses, hwaits, fun hmemory => hkeep ?_, fun j hj hheard => ?_⟩
    · by_cases hsets : op = .prefillDoneSet name
      · subst hsets
        exact h.undisputed_of_sets hp
      · apply h.memory
        rw [← hmemory]
        exact (Server.left_preserves (P := fun w : World => w.prefillDone name =
          c.world.prefillDone name) rfl fun _ => prefillDone_answer env l.1 c.world hsets).symm
    · rcases Config.heard_next.mp hheard with ⟨-, hopens⟩ | hbefore
      · obtain ⟨-, hans⟩ := Server.heard_answered (not_opensGate_error name op) hopens
        exact Or.inr (hkeep (undisputed_of_opensGate hans h.memory))
      · exact (h.inside j hj hbefore).imp (hfinished j) hkeep

/-! ## One call -/

/-- The answer that lets the call pass was given when the prefill was done, and it only read. -/
theorem prefillDone_of_opensGate {tid : Nat} {w : World} {op : Op}
    (hM : OpensGate name op (answer env tid op w).1)
    (hmemory : op = .prefillDoneGet name → w.prefillDone name = true → PrefillDone w name) :
    PrefillDone w name ∧ (answer env tid op w).2 = w := by
  unfold OpensGate at hM
  split at hM
  · next n hr =>
    subst hM
    exact ⟨hmemory rfl (Except.ok.inj hr), rfl⟩
  · next n e hr =>
    obtain ⟨rfl, hdone⟩ := hM
    exact ⟨prefillDone_get hr hdone, kvGet_world ..⟩
  · exact hM.elim

/-- The call is still at the gate, or it is over, or the status has been `done` in its time. -/
def AtGate (i : Nat) (name : String) (c : System) : Prop :=
  (c.prog i).Guarded (OpensGate name) (· = .prefillDoneSet name) ReturnsMessage ∨
    (c.prog i).Finished ∨ (c.Heard i (OpensGate name) ∧ DoneDuring i name c)

/-- **One step at or past the gate.** -/
theorem step_atGate (h : AtGate i name c) (hright : MemoryRight jobs name c)
    (hrunning : ¬ (c.prog i).Finished) (hmeets : GateHolds jobs i name c l)
    (hs : c.step (serve env) l = some d) :
    (d.prog i).Guarded (OpensGate name) (· = .prefillDoneSet name) ReturnsMessage ∨
      (d.Heard i (OpensGate name) ∧ DoneDuring i name d) := by
  obtain ⟨op, k, hp, rfl⟩ := Config.step_cases hs
  have hfinds := hmeets op (next?_of_await hp)
  rcases h with hg | hfin | ⟨hheard, ev, hev, htid, hdone, hsame⟩
  · by_cases hi : i = l.1
    · subst hi
      rw [hp] at hg
      by_cases hM : OpensGate name op ((serve env).heard l.1 op c.world l.2)
      · -- The gate opens: the answer arrived, and the state it was read from is the event's.
        refine Or.inr ⟨Config.heard_next.mpr (Or.inl ⟨rfl, hM⟩), _, List.mem_cons_self, rfl, ?_⟩
        obtain ⟨hf, hans⟩ := Server.heard_answered (not_opensGate_error name op) hM
        have hlands : l.2.Lands := hf ▸ Fault.lands_ok
        obtain ⟨hdone, hworld⟩ := prefillDone_of_opensGate hans fun hop hset =>
          (hright.memory hset).prefillDone
            ((hfinds hlands).2.2 rfl (hop ▸ beq_self_eq_true name) hset)
        refine ⟨hdone, ?_⟩
        rw [Config.next_world, Server.left_of_lands hlands, serve_answer, hworld]
        exact sameRegistration_self hdone
      · refine Or.inl ?_
        rw [Config.next_prog_self]
        exact hg.2 _ hM
    · refine Or.inl ?_
      rw [Config.next_prog_of_ne hi]
      exact hg
  · -- A consumer that is over cannot be at the gate; one that is inside stays so, as its
    -- registration is the same.
    exact absurd hfin hrunning
  · refine Or.inr ⟨Config.heard_next.mpr (Or.inr hheard), ev, List.mem_cons_of_mem _ hev, htid,
      hdone, ?_⟩
    rw [Config.next_world]
    refine Server.left_preserves (P := fun w => SameRegistration ev.before w name) hsame
      fun hl => ?_
    exact sameRegistration_answer env l.1 hsame fun hop =>
      hrunning ((hfinds hl).2.1 (hop ▸ beq_self_eq_true name) hheard)

/-- A call that is over stays over. -/
theorem step_atGate_keeps (h : MemoryRight jobs name c ∧ AtGate i name c)
    (hmeets : GateHolds jobs i name c l) (hs : c.step (serve env) l = some d) :
    MemoryRight jobs name d ∧ AtGate i name d := by
  refine ⟨h.1.step hmeets hs, ?_⟩
  by_cases hrunning : (c.prog i).Finished
  · exact Or.inr (Or.inl (Config.step_finished hrunning hs))
  · exact (step_atGate h.2 h.1 hrunning hmeets hs).imp_right Or.inr

/-! ## Every run -/

/-- **When nothing is delivered before the prefill is done.** In every run of a fresh process, under
any interleaving with any other jobs and any lost calls: where the steps meet `GateHolds`, a call of
`getNextMessage` that returns a message has seen the prefill of the present registration done. -/
theorem done_during_next (env : Env) (w : World) (jobs : Nat → Job) (i : Nat) (name : String)
    (rounds : Nat) (pop : Bool) (ls : Schedule) (f : Fault Outage) {d : System}
    {m : ProvisioningMessage} (hfresh : w.prefillDone name = false)
    (hjob : jobs i = .getNext name rounds pop)
    (hmeets : (System.start env w jobs).Along (serve env) (GateHolds jobs i name)
      (ls ++ [(i, f)]))
    (hrun : (System.start env w jobs).run (serve env) (ls ++ [(i, f)]) = some d)
    (hret : d.prog i = .pure (.message (some m))) : DoneDuring i name d := by
  have hstart : AtGate i name (System.start env w jobs) := by
    refine Or.inl ?_
    rw [System.start_prog, hjob]
    exact guarded_getNext name rounds pop
  -- The last step is one of the call itself, so the call was running before it.
  obtain ⟨c, ⟨hright, hc⟩, hlast, hs⟩ := Config.run_last
    (P := fun c => MemoryRight jobs name c ∧ AtGate i name c)
    (fun _ _ _ hc hmeets hs => step_atGate_keeps hc hmeets hs)
    ⟨memoryRight_start hfresh, hstart⟩ hmeets hrun
  have hrunning : ¬ (c.prog i).Finished := by
    obtain ⟨op, k, hp, -⟩ := Config.step_cases hs
    rw [hp]
    exact not_finished_await op k
  rcases step_atGate hc hright hrunning hlast hs with hg | ⟨-, hdone⟩
  · rw [hret] at hg
    exact absurd ⟨m, rfl⟩ hg
  · exact hdone

/-! ## The gate stays open -/

/-- A consumer drains "a", "a" is deleted and registered again with a prefill, a change of a user
comes in, and the consumer asks again. -/
def reregistration : List Job :=
  [.create "s" .withoutPrefill, .getNext "a" 0 false, .delete .sample "s" .admin "a",
    .create "s" .sample, .updateMapping, .postEvent .sample,
    .dispatch, .getNext "a" 0 false]

/-- One job after the other. -/
def reregistrationSchedule : Schedule :=
  [(0, 7), (1, 7), (2, 5), (3, 8), (4, 3), (5, 1), (6, 4), (7, 4)].flatMap fun (i, steps) =>
    List.replicate steps (i, .ok)

/-- The consumer is handed the change, and the prefill has been pending all the time. -/
theorem message_while_pending : ∃ d m,
    (System.start .sample .prepared (Job.pool reregistration)).run (serve .sample)
      (reregistrationSchedule ++ [(7, .ok)]) = some d ∧
    d.prog 7 = .pure (.message (some m)) ∧
    (d.hist.all fun ev => ev.tid != 7 ||
      (ev.before.record "a").map (·.prefillQueueStatus) != some .done) = true :=
  ⟨_, _, rfl, rfl, rfl⟩

theorem not_done_during_next : ¬ ∀ (env : Env) (w : World) (jobs : Nat → Job) (i : Nat)
    (name : String) (rounds : Nat) (pop : Bool) (ls : Schedule) (f : Fault Outage) (d : System)
    (m : ProvisioningMessage), (∀ n, w.prefillDone n = false) →
    jobs i = .getNext name rounds pop →
    (System.start env w jobs).run (serve env) (ls ++ [(i, f)]) = some d →
    d.prog i = .pure (.message (some m)) → DoneDuring i name d := by
  intro h
  obtain ⟨d, m, hrun, hret, hpending⟩ := message_while_pending
  obtain ⟨ev, hev, htid, ⟨e, he, hdone⟩, -⟩ :=
    h .sample .prepared _ 7 "a" 0 false _ .ok d m (fun _ => rfl) rfl hrun hret
  have hnot := List.all_eq_true.mp hpending ev hev
  rw [htid] at hnot
  have hrecord : ev.before.record "a" = some e.value := by
    show ((ev.before.bucket .subscriptions).get? "a").map (·.value) = some e.value
    rw [he]
    rfl
  rw [hrecord, Option.map_some, hdone] at hnot
  exact absurd hnot (by decide)

/-! ## The gate is opened for the next registration -/

def opensGate (name : String) : (op : Op) → Except CallError op.Res → Bool
  | .prefillDoneGet n, .ok true => n == name
  | .kvGet .subscriptions n, .ok e => n == name && e.value.prefillQueueStatus == .done
  | _, _ => false

theorem opensGate_iff {op : Op} {a : Except CallError op.Res} :
    opensGate name op a = true ↔ OpensGate name op a := by
  unfold opensGate OpensGate
  split <;> simp

instance (name : String) (op : Op) (a : Except CallError op.Res) :
    Decidable (OpensGate name op a) :=
  decidable_of_iff _ opensGate_iff

instance (jobs : Nat → Job) (name : String) (c : System) : Decidable (NobodyInside jobs name c) :=
  inferInstanceAs (Decidable (∀ ev ∈ c.hist, _))

instance (i : Nat) (name : String) (c : System) : Decidable (c.Heard i (OpensGate name)) :=
  inferInstanceAs (Decidable (∃ ev ∈ c.hist, _))

instance (jobs : Nat → Job) (i : Nat) (name : String) (c : System) (l : Nat × Fault Outage) :
    Decidable (GateHolds jobs i name c l) :=
  inferInstanceAs (Decidable (∀ op ∈ (c.prog l.1).next?, _))

/-- "a" is registered with a prefill, which is done, and deleted. It is registered again without
one, and a consumer that finds nothing makes the process remember that. The status is updated once
more, a change of a user comes in, and the consumer asks again. -/
def remembered : List Job :=
  [.create "s" .sample, .prefill, .delete .sample "s" .admin "a", .create "s" .withoutPrefill,
    .getNext "a" 0 false, .setStatus "a" .done, .updateMapping, .postEvent .sample,
    .dispatch, .getNext "a" 0 false]

def rememberedSchedule : Schedule :=
  [(0, 8), (1, 11), (2, 5), (3, 7), (4, 7), (5, 2), (6, 3), (7, 1), (8, 4), (9, 4)].flatMap
    fun (i, steps) => List.replicate steps (i, .ok)

-- The reports of the prefill are requests that the app evaluates.
attribute [local semireducible] receive

theorem done_during_next_sample : ∃ d,
    (System.start .sample .prepared (Job.pool remembered)).run (serve .sample)
      (rememberedSchedule ++ [(9, .ok)]) = some d ∧ DoneDuring 9 "a" d :=
  ⟨_, rfl, done_during_next .sample .prepared (Job.pool remembered) 9 "a" 0 false
    rememberedSchedule .ok rfl rfl (by decide +kernel) rfl rfl⟩

end Provisioning
