import Mathlib.Data.List.Basic
import Mathlib.Logic.Function.Basic

/-!
# Task groups

A task group runs children side by side with a body that has created them, and ends when all of them
have. The first failure cancels whoever is still running; what comes out is one exception for the
whole group, so that a caller sees neither which child failed nor, by its class, how.

A task that is cancelled is only asked to stop: it may still end in any way. A child that ends with
the cancellation itself has not failed. Two exceptions are spared the wrapping, those that are meant
to end the process.

The children are a family over `ι`. `K` says which exceptions the group treats specially. `Kept` is
what holds of every group, whatever its children and its body do: the failures are recorded, all of
them, and nobody runs on undisturbed after the first one.

## How the group is told

A group is a record of how its children and its body have ended, and of the errors in the order in
which they were noticed. Each event is a function on it. The order of the errors depends on the
order of the events. Whether a group comes out at the end, or an exception by itself, does not, and
neither does the set of the errors in it; so `Kept` speaks of them as a set.
-/

namespace TaskGroup

/-- The classes of exceptions a group tells apart. -/
structure Classes (ε : Type) where
  /-- The cancellation. -/
  cancelled : ε → Bool
  /-- Raised as it is. -/
  exiting : ε → Bool

inductive Task (ε : Type) where
  | running (cancelling : Bool)
  | ended (how : Except ε Unit)

/-- Ask the task to stop. -/
def Task.cancel {ε : Type} : Task ε → Task ε
  | .running _ => .running true
  | t => t

/-- How the task has ended, if it has. -/
def Task.ended? {ε : Type} : Task ε → Option (Except ε Unit)
  | .ended how => some how
  | .running _ => none

@[simp] theorem Task.ended?_cancel {ε : Type} (t : Task ε) : t.cancel.ended? = t.ended? := by
  cases t <;> rfl

theorem Task.cancel_eq_running {ε : Type} {t : Task ε} {c : Bool} (h : t.cancel = .running c) :
    c = true := by
  cases t with
  | running b =>
    cases h
    rfl
  | ended how => cases h

/-- What comes out of a group that has not simply ended. -/
inductive Raised (ε : Type) where
  | bare (e : ε)
  | group (es : List ε)

structure Group (ι ε : Type) where
  task : ι → Task ε
  /-- How the body was left, if it was. -/
  body : Option (Except ε Unit)
  /-- The failures, in their order. -/
  errors : List ε

namespace Group

variable {ι ε : Type} (K : Classes ε)

/-- All children run, and so does the body. -/
def start : Group ι ε := ⟨fun _ => .running false, none, []⟩

def cancelTask [DecidableEq ι] (g : Group ι ε) (i : ι) : Group ι ε :=
  { g with task := Function.update g.task i (g.task i).cancel }

/-- A failure is recorded and cancels all. -/
def record (g : Group ι ε) : Except ε Unit → Group ι ε
  | .ok () => g
  | .error e =>
    if K.cancelled e then g
    else { g with task := fun i => (g.task i).cancel, errors := g.errors ++ [e] }

/-- A child ends. -/
def taskEnds [DecidableEq ι] (g : Group ι ε) (i : ι) (how : Except ε Unit) : Group ι ε :=
  record K { g with task := Function.update g.task i (.ended how) } how

/-- The body is left; by an exception, even the cancellation, the children are cancelled. -/
def bodyEnds (g : Group ι ε) : Except ε Unit → Group ι ε
  | .ok () => { g with body := some (.ok ()) }
  | .error e =>
    record K { g with body := some (.error e), task := fun i => (g.task i).cancel } (.error e)

/-- What comes out of a group that is over. -/
def result (g : Group ι ε) : Except (Raised ε) Unit :=
  match g.errors.find? K.exiting with
  | some e => .error (.bare e)
  | none =>
    if g.errors.isEmpty then
      match g.body with
      | some (.error e) => .error (.bare e)
      | _ => .ok ()
    else .error (.group g.errors)

/-- A child or the body has ended with this exception. -/
def EndedWith (g : Group ι ε) (e : ε) : Prop :=
  (∃ i, (g.task i).ended? = some (.error e)) ∨ g.body = some (.error e)

/-- What holds of every group. -/
structure Kept (g : Group ι ε) : Prop where
  /-- The failures are those of its children and its body. -/
  mem_errors : ∀ e, e ∈ g.errors ↔ K.cancelled e = false ∧ g.EndedWith e
  /-- After a failure, whoever runs is asked to stop. -/
  aborted : g.errors ≠ [] → ∀ i c, g.task i = .running c → c = true

variable {K} {g : Group ι ε} {how : Except ε Unit}

/-! ## Who has ended -/

@[simp] theorem record_ended? (i : ι) :
    ((g.record K how).task i).ended? = (g.task i).ended? := by
  unfold record
  split
  · rfl
  · split
    · rfl
    · exact Task.ended?_cancel _

@[simp] theorem record_body : (g.record K how).body = g.body := by
  unfold record
  split
  · rfl
  · split <;> rfl

/-- No failure is forgotten. -/
theorem record_errors (how : Except ε Unit) (h : g.errors ≠ []) : (g.record K how).errors ≠ [] := by
  unfold record
  split
  · exact h
  · split
    · exact h
    · exact List.append_ne_nil_of_left_ne_nil h _

@[simp] theorem bodyEnds_ended? (i : ι) :
    ((g.bodyEnds K how).task i).ended? = (g.task i).ended? := by
  cases how with
  | ok _ => rfl
  | error e =>
    unfold bodyEnds
    rw [record_ended?, Task.ended?_cancel]

@[simp] theorem bodyEnds_body : (g.bodyEnds K how).body = some how := by
  cases how with
  | ok _ => rfl
  | error e =>
    unfold bodyEnds
    rw [record_body]

theorem bodyEnds_errors (h : g.errors ≠ []) : (g.bodyEnds K how).errors ≠ [] := by
  cases how with
  | ok _ => exact h
  | error e => exact record_errors (.error e) h

section Children

variable [DecidableEq ι] {i : ι}

@[simp] theorem cancelTask_ended? (j : ι) :
    ((g.cancelTask i).task j).ended? = (g.task j).ended? := by
  unfold cancelTask
  by_cases hj : j = i
  · subst hj
    dsimp only
    rw [Function.update_self, Task.ended?_cancel]
  · dsimp only
    rw [Function.update_of_ne hj]

@[simp] theorem cancelTask_body : (g.cancelTask i).body = g.body := rfl

@[simp] theorem taskEnds_ended?_self : ((g.taskEnds K i how).task i).ended? = some how := by
  unfold taskEnds
  rw [record_ended?]
  dsimp only
  rw [Function.update_self]
  rfl

@[simp] theorem taskEnds_ended?_of_ne {j : ι} (h : j ≠ i) :
    ((g.taskEnds K i how).task j).ended? = (g.task j).ended? := by
  unfold taskEnds
  rw [record_ended?]
  dsimp only
  rw [Function.update_of_ne h]

@[simp] theorem taskEnds_body : (g.taskEnds K i how).body = g.body := record_body

theorem taskEnds_errors (h : g.errors ≠ []) : (g.taskEnds K i how).errors ≠ [] :=
  record_errors how h

end Children

/-! ## What every group keeps -/

theorem kept_start : Kept K (start : Group ι ε) := by
  refine ⟨?_, fun h => absurd rfl h⟩
  intro e
  apply iff_of_false List.not_mem_nil
  intro hended
  rcases hended with ⟨-, ⟨i, hi⟩ | hbody⟩
  · cases hi
  · cases hbody

/-- Asking for an end ends nothing. -/
theorem Kept.cancelTask [DecidableEq ι] (h : Kept K g) (i : ι) : Kept K (g.cancelTask i) := by
  constructor
  · intro e
    unfold EndedWith
    simp only [cancelTask_ended?]
    exact h.mem_errors e
  · intro herrors j c hj
    unfold Group.cancelTask at hj
    by_cases hji : j = i
    · subst hji
      dsimp only at hj
      rw [Function.update_self] at hj
      exact Task.cancel_eq_running hj
    · dsimp only at hj
      rw [Function.update_of_ne hji] at hj
      exact h.aborted herrors j c hj

/-- The failure of one more, recorded. `g'` is the group with that one ended. -/
theorem Kept.record (h : Kept K g) (g' : Group ι ε) (herrors : g'.errors = g.errors)
    (hended : ∀ e, g'.EndedWith e ↔ g.EndedWith e ∨ how = .error e)
    (htask : ∀ i c, g'.task i = .running c → g.task i = .running c ∨ c = true) :
    Kept K (g'.record K how) := by
  have hsame : ∀ e, (g'.record K how).EndedWith e ↔ g.EndedWith e ∨ how = .error e := by
    intro e
    rw [← hended]
    unfold EndedWith
    simp only [record_ended?, record_body]
  have haborted : g'.errors ≠ [] → ∀ i c, g'.task i = .running c → c = true := by
    intro hne i c hi
    rcases htask i c hi with hi | hc
    · exact h.aborted (herrors ▸ hne) i c hi
    · exact hc
  -- Without a failure nothing is recorded.
  have hquiet : (∀ e, how = .error e → K.cancelled e = true) → g'.record K how = g' →
      Kept K (g'.record K how) := by
    intro hcancelled hrecord
    constructor
    · intro e
      rw [hsame, hrecord, herrors, h.mem_errors]
      refine and_congr_right fun hfailed => (or_iff_left fun heq => ?_).symm
      rw [hcancelled e heq] at hfailed
      cases hfailed
    · rw [hrecord]
      exact haborted
  cases how with
  | ok _ => exact hquiet nofun rfl
  | error e' =>
    cases hcancelled : K.cancelled e' with
    | true =>
      apply hquiet
      · intro e heq
        rw [← Except.error.inj heq]
        exact hcancelled
      · unfold Group.record
        exact if_pos hcancelled
    | false =>
      have hrecord : g'.record K (.error e') =
          { g' with task := fun i => (g'.task i).cancel, errors := g'.errors ++ [e'] } := by
        unfold Group.record
        exact if_neg (Bool.eq_false_iff.mp hcancelled)
      constructor
      · intro e
        rw [hsame, hrecord, List.mem_append, List.mem_singleton, herrors, h.mem_errors]
        constructor
        · intro hmem
          rcases hmem with ⟨hfailed, hold⟩ | rfl
          · exact ⟨hfailed, Or.inl hold⟩
          · exact ⟨hcancelled, Or.inr rfl⟩
        · intro hmem
          rcases hmem with ⟨hfailed, hold | heq⟩
          · exact Or.inl ⟨hfailed, hold⟩
          · exact Or.inr (Except.error.inj heq).symm
      · intro _ i c hi
        rw [hrecord] at hi
        exact Task.cancel_eq_running hi

/-- A running child ends. -/
theorem Kept.taskEnds [DecidableEq ι] (h : Kept K g) {i : ι} (hi : (g.task i).ended? = none)
    (how : Except ε Unit) : Kept K (g.taskEnds K i how) := by
  -- To be shown is which errors there are now, and that no other child has changed.
  refine h.record _ ?_ ?_ ?_
  · rfl
  · intro e
    constructor
    · intro hended
      rcases hended with ⟨j, hj⟩ | hbody
      · by_cases hji : j = i
        · subst hji
          dsimp only at hj
          rw [Function.update_self] at hj
          exact Or.inr (Option.some.inj hj)
        · dsimp only at hj
          rw [Function.update_of_ne hji] at hj
          exact Or.inl (Or.inl ⟨j, hj⟩)
      · exact Or.inl (Or.inr hbody)
    · intro hended
      rcases hended with (⟨j, hj⟩ | hbody) | rfl
      · have hji : j ≠ i := by
          intro heq
          rw [heq, hi] at hj
          cases hj
        refine Or.inl ⟨j, ?_⟩
        dsimp only
        rw [Function.update_of_ne hji]
        exact hj
      · exact Or.inr hbody
      · refine Or.inl ⟨i, ?_⟩
        dsimp only
        rw [Function.update_self]
        rfl
  · intro j c' hj
    by_cases hji : j = i
    · subst hji
      dsimp only at hj
      rw [Function.update_self] at hj
      cases hj
    · dsimp only at hj
      rw [Function.update_of_ne hji] at hj
      exact Or.inl hj

/-- The body is left. -/
theorem Kept.bodyEnds (h : Kept K g) (hbody : g.body = none) (how : Except ε Unit) :
    Kept K (g.bodyEnds K how) := by
  have hold : ∀ e, g.body ≠ some (.error e) := by
    intro e heq
    rw [hbody] at heq
    cases heq
  cases how with
  | ok _ =>
    constructor
    · intro e
      refine (h.mem_errors e).trans (and_congr_right fun _ => ?_)
      exact or_congr_right (iff_of_false (hold e) nofun)
    · exact h.aborted
  | error e' =>
    -- A body that raises cancels all children, like a child that does.
    show Kept K (Group.record K
      { g with body := some (.error e'), task := fun i => (g.task i).cancel } (.error e'))
    refine h.record _ ?_ ?_ ?_
    · rfl
    · intro e
      unfold EndedWith
      simp only [Task.ended?_cancel, Option.some.injEq]
      constructor
      · intro hended
        rcases hended with hchild | heq
        · exact Or.inl (Or.inl hchild)
        · exact Or.inr heq
      · intro hended
        rcases hended with (hchild | heq) | heq
        · exact Or.inl hchild
        · exact absurd heq (hold e)
        · exact Or.inr heq
    · exact fun i c hi => Or.inr (Task.cancel_eq_running hi)

/-! ## What comes out -/

/-- **A group without failures** ends as its body did. -/
theorem result_of_no_errors (h : g.errors = []) : g.result K =
    match g.body with
    | some (.error e) => .error (.bare e)
    | _ => .ok () := by
  unfold result
  rw [h]
  rfl

/-- **Failures come out as a group**, whatever their classes are. -/
theorem result_of_errors (hne : g.errors ≠ []) (hexit : ∀ e ∈ g.errors, K.exiting e = false) :
    g.result K = .error (.group g.errors) := by
  unfold result
  rw [List.find?_eq_none.mpr fun e he => by rw [hexit e he]; nofun]
  dsimp only
  rw [if_neg]
  rw [List.isEmpty_iff]
  exact hne

/-- An exception that is to end the process comes out as it is. -/
theorem result_of_exiting {e : ε} (hmem : e ∈ g.errors) (hexit : K.exiting e = true) :
    ∃ e' ∈ g.errors, K.exiting e' = true ∧ g.result K = .error (.bare e') := by
  unfold result
  cases hfind : g.errors.find? K.exiting with
  | none => exact absurd hexit (by simpa using List.find?_eq_none.mp hfind e hmem)
  | some e' => exact ⟨e', List.mem_of_find?_eq_some hfind, List.find?_some hfind, rfl⟩

end Group

end TaskGroup
