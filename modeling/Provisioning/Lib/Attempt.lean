import Mathlib.Data.List.Forall2
import Provisioning.Lib.Pool

/-!
# One program, attempted again and again

`Pool` schedules many programs; this file is about one that is alone with the server and may not
get to its end. A *plan* is the list of faults its calls meet. Where the plan is exhausted the
process dies: no further call is issued and no exception handler runs. Where a call faults, the
program goes on with the exception, so its handlers do run.

An attempt leaves three things behind: the outcome, if it got that far; the state of the server;
and the calls that the server carried out, in order (`landed`; a call that is answered with an
exception did nothing and is not among them). The last is what one needs to say *where* an attempt
was cut without counting calls.

`alone` is the run that nothing happens to.

## Three ways to use it

A proof about a program under faults wants one of three things, and there is a rule for each.

- The **result** of a run that nothing happens to. `Runs` composes along the program and gives
  outcome, state and calls together; `finish` computes outcome and state where the result is not
  known beforehand. With enough fault-free entries in the plan an attempt is such a run.
- A **property of the state**, whatever happens. `attempt_invariant` for one that every call keeps;
  `attempt_fact` for one that certain calls establish and nothing revokes, as an equivalence with
  what has landed; `attempt_until` for one that holds up to a call and gives way to another.
- A **property of the order** of calls. `attempt_guarded` and `attempt_guard_landed` take what
  `Guarded` says of the program to what has landed.

The plan is generalized in all of the inductions, which are on the program: at each call the four
cases are those of the plan.
-/

namespace Await

/-- What is left of an attempt. -/
structure Attempt (Op ε σ α : Type) where
  outcome : Option (Except ε α)
  world : σ
  landed : List Op

namespace Attempt

-- A call in front changes neither outcome nor state.

variable {Op δ ε σ α ρ : Type}

/-- The attempt after one more served call in front, answered with `r`. -/
def after (a : Attempt Op ε σ α) (op : Op) (r : Except δ ρ) : Attempt Op ε σ α :=
  match r with
  | .ok _ => { a with landed := op :: a.landed }
  | .error _ => a

@[simp] theorem after_outcome (a : Attempt Op ε σ α) (op : Op) (r : Except δ ρ) :
    (a.after op r).outcome = a.outcome := by
  cases r <;> rfl
@[simp] theorem after_world (a : Attempt Op ε σ α) (op : Op) (r : Except δ ρ) :
    (a.after op r).world = a.world := by
  cases r <;> rfl
@[simp] theorem after_ok (a : Attempt Op ε σ α) (op : Op) (x : ρ) :
    (a.after op (.ok x : Except δ ρ)).landed = op :: a.landed := rfl
@[simp] theorem after_error (a : Attempt Op ε σ α) (op : Op) (e : δ) :
    (a.after op (.error e : Except δ ρ)).landed = a.landed := rfl

end Attempt

namespace Prog

variable {Op : Type} {Res : Op → Type} {δ ε φ σ α : Type}

/-- Run the program alone against the server, under a plan. -/
def attempt (S : Server Op Res δ φ σ) (tid : Nat) :
    Prog Op Res δ ε α → List (Fault φ) → σ → Attempt Op ε σ α
  | .pure a, _, w => ⟨some (.ok a), w, []⟩
  | .throw e, _, w => ⟨some (.error e), w, []⟩
  | .await _ _, [], w => ⟨none, w, []⟩
  | .await op k, .ok :: fs, w =>
    ((k (S.answer tid op w).1).attempt S tid fs (S.answer tid op w).2).after op
      (S.answer tid op w).1
  | .await _ k, .before e :: fs, w => (k (.error (S.lost e))).attempt S tid fs w
  | .await op k, .after e :: fs, w =>
    ((k (.error (S.lost e))).attempt S tid fs (S.answer tid op w).2).after op
      (S.answer tid op w).1

/-- Run the program alone against the server, and nothing happens to it. -/
def alone (S : Server Op Res δ φ σ) (tid : Nat) : Prog Op Res δ ε α → σ → Attempt Op ε σ α
  | .pure a, w => ⟨some (.ok a), w, []⟩
  | .throw e, w => ⟨some (.error e), w, []⟩
  | .await op k, w =>
    ((k (S.answer tid op w).1).alone S tid (S.answer tid op w).2).after op (S.answer tid op w).1

variable {S : Server Op Res δ φ σ} {tid : Nat}

@[simp] theorem attempt_pure (a : α) (fs : List (Fault φ)) (w : σ) :
    (Prog.pure a : Prog Op Res δ ε α).attempt S tid fs w = ⟨some (.ok a), w, []⟩ := by
  simp only [attempt]

@[simp] theorem attempt_throw (e : ε) (fs : List (Fault φ)) (w : σ) :
    (Prog.throw e : Prog Op Res δ ε α).attempt S tid fs w = ⟨some (.error e), w, []⟩ := by
  simp only [attempt]

-- The run alone has no plan, and so no case in which the process dies.
@[simp] theorem alone_pure (a : α) (w : σ) :
    (Prog.pure a : Prog Op Res δ ε α).alone S tid w = ⟨some (.ok a), w, []⟩ := rfl

@[simp] theorem alone_throw (e : ε) (w : σ) :
    (Prog.throw e : Prog Op Res δ ε α).alone S tid w = ⟨some (.error e), w, []⟩ := rfl

theorem alone_await (op : Op) (k : Except δ (Res op) → Prog Op Res δ ε α) (w : σ) :
    (Prog.await op k).alone S tid w =
      ((k (S.answer tid op w).1).alone S tid (S.answer tid op w).2).after op
        (S.answer tid op w).1 := rfl

/-- **The four things that can happen at a call**: the process dies there, the call is served,
it fails before it is served, or after. -/
theorem attempt_await {op : Op} {k : Except δ (Res op) → Prog Op Res δ ε α} {w : σ}
    {P : Attempt Op ε σ α → Prop} (plan : List (Fault φ))
    (die : P ⟨none, w, []⟩)
    (ok : ∀ fs, P (((k (S.answer tid op w).1).attempt S tid fs (S.answer tid op w).2).after op
      (S.answer tid op w).1))
    (before : ∀ e fs, P ((k (.error (S.lost e))).attempt S tid fs w))
    (after : ∀ e fs, P (((k (.error (S.lost e))).attempt S tid fs (S.answer tid op w).2).after op
      (S.answer tid op w).1)) :
    P ((Prog.await op k).attempt S tid plan w) := by
  cases plan with
  | nil => exact die
  | cons f fs =>
    cases f with
    | ok => exact ok fs
    | before e => exact before e fs
    | after e => exact after e fs

/-! ## A run that nothing happens to -/

/-! `Runs` is an equation about `alone`, with the three parts as arguments. In this form they are
found by unification where the rules are put together. -/

section Runs

variable {β γ : Type} {w w' w'' : σ} {x : α} {y : β} {l l' : List Op}

/-- Alone, from `w`, the program returns `x` in `w'`, and the calls `l` are carried out. -/
def Runs (S : Server Op Res δ φ σ) (tid : Nat) (p : Prog Op Res δ ε α) (w : σ) (x : α) (w' : σ)
    (l : List Op) : Prop :=
  p.alone S tid w = ⟨some (.ok x), w', l⟩

theorem Runs.pure (x : α) (w : σ) : (Prog.pure x : Prog Op Res δ ε α).Runs S tid w x w [] := rfl

/-- One call that is answered. -/
theorem Runs.call {raise : δ → ε} {op : Op} {r : Res op} (h : S.answer tid op w = (.ok r, w')) :
    (Prog.call raise op : Prog Op Res δ ε (Res op)).Runs S tid w r w' [op] := by
  unfold Runs Prog.call
  rw [alone_await, h]
  rfl

/-- What a call adds to what is carried out. -/
def landing {ρ : Type} (op : Op) : Except δ ρ → List Op
  | .ok _ => [op]
  | .error _ => []

/-- **One step**: the call is answered, and what it leads to runs on. -/
theorem runs_await {op : Op} {k : Except δ (Res op) → Prog Op Res δ ε α} :
    (Prog.await op k).Runs S tid w x w' l ↔
      ∃ rest, (k (S.answer tid op w).1).Runs S tid (S.answer tid op w).2 x w' rest ∧
        l = landing op (S.answer tid op w).1 ++ rest := by
  unfold Runs
  rw [alone_await]
  cases (S.answer tid op w).1 with
  | ok r =>
    constructor
    · intro h
      cases hrest : (k (.ok r)).alone S tid (S.answer tid op w).2 with
      | mk outcome world landed =>
        rw [hrest] at h
        cases h
        exact ⟨landed, rfl, rfl⟩
    · intro h
      obtain ⟨rest, hrest, rfl⟩ := h
      rw [hrest]
      rfl
  | error e =>
    constructor
    · intro h
      exact ⟨l, h, rfl⟩
    · intro h
      obtain ⟨rest, hrest, rfl⟩ := h
      exact hrest

/-- **One part after the other**, with their calls in a row. -/
theorem Runs.bind {p : Prog Op Res δ ε α} {f : α → Prog Op Res δ ε β}
    (hp : p.Runs S tid w x w' l) (hf : (f x).Runs S tid w' y w'' l') :
    (p.bind f).Runs S tid w y w'' (l ++ l') := by
  induction p generalizing w l with
  | pure a =>
    cases hp
    exact hf
  | throw e => cases hp
  | await op k ih =>
    obtain ⟨rest, hrest, rfl⟩ := runs_await.mp hp
    rw [bind_await, List.append_assoc]
    exact runs_await.mpr ⟨rest ++ l', ih _ hrest, rfl⟩

/-- What returns is not caught. -/
theorem Runs.tryCatch {p : Prog Op Res δ ε α} {h : ε → Prog Op Res δ ε α}
    (hp : p.Runs S tid w x w' l) : (p.tryCatch h).Runs S tid w x w' l := by
  induction p generalizing w l with
  | pure a => exact hp
  | throw e => cases hp
  | await op k ih =>
    obtain ⟨rest, hrest, rfl⟩ := runs_await.mp hp
    rw [tryCatch_await]
    exact runs_await.mpr ⟨rest, ih _ hrest, rfl⟩

/-- **The loop rule.** If every round runs from a state in `I` to one, the loop does, and what it
carries out is what the rounds carry out, one after the other. -/
theorem runs_forEach (S : Server Op Res δ φ σ) (tid : Nat) {I : σ → Prop}
    {F : γ → List Op → Prop} {f : γ → Prog Op Res δ ε Unit} (xs : List γ)
    (h : ∀ x ∈ xs, ∀ w, I w → ∃ w' l, (f x).Runs S tid w () w' l ∧ I w' ∧ F x l) (hI : I w) :
    ∃ w' ls, (Prog.forEach xs f).Runs S tid w () w' ls.flatten ∧ I w' ∧ List.Forall₂ F xs ls := by
  induction xs generalizing w with
  | nil => exact ⟨w, [], Runs.pure () w, hI, .nil⟩
  | cons x xs ih =>
    obtain ⟨w₁, l, hx, hI₁, hF⟩ := h x List.mem_cons_self w hI
    obtain ⟨w₂, ls, hxs, hI₂, hFs⟩ := ih (fun y hy => h y (List.mem_cons_of_mem x hy)) hI₁
    exact ⟨w₂, l :: ls, hx.bind hxs, hI₂, .cons hF hFs⟩

end Runs

/-! ## What a run that nothing happens to ends with -/

/-! The same without the calls, as a function. A part that raises ends it, unless it is caught. -/

section Finish

variable {β γ : Type} {w w' : σ} {x : α} {e : ε}

/-- The outcome, and the state it leaves. -/
def finish (S : Server Op Res δ φ σ) (tid : Nat) : Prog Op Res δ ε α → σ → Except ε α × σ
  | .pure a, w => (.ok a, w)
  | .throw e, w => (.error e, w)
  | .await op k, w => (k (S.answer tid op w).1).finish S tid (S.answer tid op w).2

@[simp] theorem finish_pure (a : α) (w : σ) :
    (Prog.pure a : Prog Op Res δ ε α).finish S tid w = (.ok a, w) := rfl
@[simp] theorem finish_throw (e : ε) (w : σ) :
    (Prog.throw e : Prog Op Res δ ε α).finish S tid w = (.error e, w) := rfl
theorem finish_await (op : Op) (k : Except δ (Res op) → Prog Op Res δ ε α) (w : σ) :
    (Prog.await op k).finish S tid w =
      (k (S.answer tid op w).1).finish S tid (S.answer tid op w).2 := rfl

theorem finish_call {raise : δ → ε} {op : Op} {r : Res op} (h : S.answer tid op w = (.ok r, w')) :
    (call raise op : Prog Op Res δ ε (Res op)).finish S tid w = (.ok r, w') := by
  unfold call
  rw [finish_await, h]
  rfl

/-- A part that returns, and the next one. -/
theorem finish_bind {p : Prog Op Res δ ε α} {f : α → Prog Op Res δ ε β}
    (h : p.finish S tid w = (.ok x, w')) :
    (p.bind f).finish S tid w = (f x).finish S tid w' := by
  induction p generalizing w with
  | pure a =>
    cases h
    rfl
  | throw e => cases h
  | await op k ih => exact ih _ h

/-- A part that raises. -/
theorem finish_bind_error {p : Prog Op Res δ ε α} {f : α → Prog Op Res δ ε β}
    (h : p.finish S tid w = (.error e, w')) : (p.bind f).finish S tid w = (.error e, w') := by
  induction p generalizing w with
  | pure a => cases h
  | throw e =>
    cases h
    rfl
  | await op k ih => exact ih _ h

/-- A `try` whose body returns. -/
theorem finish_tryCatch {p : Prog Op Res δ ε α} {f : ε → Prog Op Res δ ε α}
    (h : p.finish S tid w = (.ok x, w')) : (p.tryCatch f).finish S tid w = (.ok x, w') := by
  induction p generalizing w with
  | pure a => exact h
  | throw e => cases h
  | await op k ih => exact ih _ h

/-- A `try` whose body raises goes on with its handler, in the state that the body has left. -/
theorem finish_tryCatch_error {p : Prog Op Res δ ε α} {f : ε → Prog Op Res δ ε α}
    (h : p.finish S tid w = (.error e, w')) :
    (p.tryCatch f).finish S tid w = (f e).finish S tid w' := by
  induction p generalizing w with
  | pure a => cases h
  | throw e =>
    cases h
    rfl
  | await op k ih => exact ih _ h

theorem Runs.finish {p : Prog Op Res δ ε α} {l : List Op} (h : p.Runs S tid w x w' l) :
    p.finish S tid w = (.ok x, w') := by
  induction p generalizing w l with
  | pure a =>
    cases h
    rfl
  | throw e => cases h
  | await op k ih =>
    obtain ⟨rest, hrest, -⟩ := runs_await.mp h
    exact ih _ hrest

theorem alone_outcome (p : Prog Op Res δ ε α) (w : σ) :
    (p.alone S tid w).outcome = some (p.finish S tid w).1 := by
  induction p generalizing w with
  | pure a => rfl
  | throw e => rfl
  | await op k ih =>
    rw [alone_await, Attempt.after_outcome]
    exact ih _ _

/-- **An attempt that nothing happens to** is a run alone. -/
theorem attempt_of_within {p : Prog Op Res δ ε α} {n : Nat} {plan : List (Fault φ)}
    (hp : p.Within n) (hok : ∀ f ∈ plan, f = .ok) (hlen : n ≤ plan.length) (w : σ) :
    p.attempt S tid plan w = p.alone S tid w := by
  induction p generalizing n plan w with
  | pure a => exact attempt_pure ..
  | throw e => exact attempt_throw ..
  | await op k ih =>
    obtain ⟨m, rfl, hk⟩ := hp
    cases plan with
    | nil => cases hlen
    | cons f fs =>
      cases hok f List.mem_cons_self
      rw [attempt, alone_await]
      rw [ih _ (hk _) (fun f hf => hok f (List.mem_cons_of_mem _ hf))
        (Nat.le_of_succ_le_succ hlen)]

end Finish

/-! ## What an attempt leaves -/

/-! Each of these is proved once, by induction on the program, and the calls are known by `Uses`
only. So the programs of an application never have to be taken apart for a second time. -/

variable {P : Op → Prop}

/-- What every call keeps, an attempt keeps. -/
theorem attempt_invariant {I : σ → Prop} {p : Prog Op Res δ ε α} (hp : p.Uses P)
    (hstep : ∀ op w, P op → I w → I (S.answer tid op w).2) (plan : List (Fault φ)) {w : σ}
    (hI : I w) : I (p.attempt S tid plan w).world := by
  induction p generalizing plan w with
  | pure a => rw [attempt_pure]; exact hI
  | throw e => rw [attempt_throw]; exact hI
  | await op k ih =>
    refine attempt_await (P := fun a => I a.world) plan hI (fun fs => ?_) (fun e fs => ?_)
      fun e fs => ?_
    · rw [Attempt.after_world]
      exact ih _ (hp.2 _) fs (hstep op w hp.1 hI)
    · exact ih _ (hp.2 _) fs hI
    · rw [Attempt.after_world]
      exact ih _ (hp.2 _) fs (hstep op w hp.1 hI)

/-- **A fact that only certain calls establish**, and nothing revokes, holds after an attempt
exactly when it held before or one of those calls was carried out. -/
theorem attempt_fact (tid : Nat) (F : σ → Prop) (marks : Op → Prop) {p : Prog Op Res δ ε α}
    (hp : p.Uses P)
    (hstep : ∀ op w, P op → (F (S.answer tid op w).2 ↔
      F w ∨ (marks op ∧ ∃ r, (S.answer tid op w).1 = .ok r)))
    (plan : List (Fault φ)) (w : σ) :
    F (p.attempt S tid plan w).world ↔ F w ∨ ∃ op ∈ (p.attempt S tid plan w).landed, marks op := by
  induction p generalizing plan w with
  | pure a => simp
  | throw e => simp
  | await op k ih =>
    -- A served call shifts its own contribution from the state to the calls.
    have hserved : ∀ (a : Attempt Op ε σ α),
        (F a.world ↔ F (S.answer tid op w).2 ∨ ∃ op' ∈ a.landed, marks op') →
        (F (a.after op (S.answer tid op w).1).world ↔
          F w ∨ ∃ op' ∈ (a.after op (S.answer tid op w).1).landed, marks op') := by
      intro a ha
      rw [Attempt.after_world, ha, hstep op w hp.1]
      cases hr : (S.answer tid op w).1 with
      | ok r => simp [or_assoc]
      | error e => simp
    refine attempt_await (P := fun a => F a.world ↔ F w ∨ ∃ op ∈ a.landed, marks op) plan
      (by simp) (fun fs => ?_) (fun e fs => ?_) fun e fs => ?_
    · exact hserved _ (ih _ (hp.2 _) fs _)
    · exact ih _ (hp.2 _) fs w
    · exact hserved _ (ih _ (hp.2 _) fs _)

/-- What only certain calls touch is as it was, or one of them was carried out. -/
theorem attempt_unless (tid : Nat) (I : σ → Prop) (marks : Op → Prop) {p : Prog Op Res δ ε α}
    (hp : p.Uses P)
    (hstep : ∀ op w, P op → I w →
      I (S.answer tid op w).2 ∨ (marks op ∧ ∃ r, (S.answer tid op w).1 = .ok r))
    (plan : List (Fault φ)) {w : σ} (hI : I w) :
    I (p.attempt S tid plan w).world ∨ ∃ op ∈ (p.attempt S tid plan w).landed, marks op := by
  induction p generalizing plan w with
  | pure a => exact Or.inl (by rw [attempt_pure]; exact hI)
  | throw e => exact Or.inl (by rw [attempt_throw]; exact hI)
  | await op k ih =>
    have hserved : ∀ a : Attempt Op ε σ α,
        (I (S.answer tid op w).2 → I a.world ∨ ∃ op' ∈ a.landed, marks op') →
        I (a.after op (S.answer tid op w).1).world ∨
          ∃ op' ∈ (a.after op (S.answer tid op w).1).landed, marks op' := by
      intro a ha
      rcases hstep op w hp.1 hI with hkeep | ⟨hmark, r, hr⟩
      · rcases ha hkeep with h | ⟨op', hmem, hop'⟩
        · exact Or.inl (by rw [Attempt.after_world]; exact h)
        · refine Or.inr ⟨op', ?_, hop'⟩
          cases hr : (S.answer tid op w).1 with
          | ok r => exact List.mem_cons_of_mem op hmem
          | error e => exact hmem
      · refine Or.inr ⟨op, ?_, hmark⟩
        rw [hr, Attempt.after_ok]
        exact List.mem_cons_self
    refine attempt_await
      (P := fun a => I a.world ∨ ∃ op ∈ a.landed, marks op) plan (Or.inl hI)
      (fun fs => ?_) (fun e fs => ?_) fun e fs => ?_
    · exact hserved _ fun hkeep => ih _ (hp.2 _) fs hkeep
    · exact ih _ (hp.2 _) fs hI
    · exact hserved _ fun hkeep => ih _ (hp.2 _) fs hkeep

/-- **An attempt that returns, in two parts.** The first part has returned, and the second has gone
on with the rest of the plan. -/
theorem attempt_bind_ok {β : Type} {p : Prog Op Res δ ε α} {f : α → Prog Op Res δ ε β}
    {plan : List (Fault φ)} {w : σ} {b : β}
    (h : ((p.bind f).attempt S tid plan w).outcome = some (.ok b)) :
    ∃ a rest w' l, p.attempt S tid plan w = ⟨some (.ok a), w', l⟩ ∧
      ((f a).attempt S tid rest w').outcome = some (.ok b) ∧
      ((p.bind f).attempt S tid plan w).landed = l ++ ((f a).attempt S tid rest w').landed := by
  induction p generalizing plan w with
  | pure a => exact ⟨a, plan, w, [], attempt_pure a plan w, h, rfl⟩
  | throw e =>
    rw [bind_throw, attempt_throw] at h
    cases h
  | await op k ih =>
    rw [bind_await] at h ⊢
    -- A call that was served is the first of the calls of the first part.
    have hserved : ∀ {q : Prog Op Res δ ε α} {fs : List (Fault φ)} {w₀ : σ},
        (∃ a rest w' l, q.attempt S tid fs w₀ = ⟨some (.ok a), w', l⟩ ∧
          ((f a).attempt S tid rest w').outcome = some (.ok b) ∧
          ((q.bind f).attempt S tid fs w₀).landed = l ++ ((f a).attempt S tid rest w').landed) →
        ∃ a rest w' l, (q.attempt S tid fs w₀).after op (S.answer tid op w).1 =
            ⟨some (.ok a), w', l⟩ ∧
          ((f a).attempt S tid rest w').outcome = some (.ok b) ∧
          (((q.bind f).attempt S tid fs w₀).after op (S.answer tid op w).1).landed =
            l ++ ((f a).attempt S tid rest w').landed := by
      intro q fs w₀ ⟨a, rest, w', l, hq, hf, hl⟩
      cases hr : (S.answer tid op w).1 with
      | error e => exact ⟨a, rest, w', l, hq, hf, hl⟩
      | ok r =>
        refine ⟨a, rest, w', op :: l, ?_, hf, ?_⟩
        · rw [hq]
          rfl
        · rw [Attempt.after_ok, hl]
          rfl
    cases plan with
    | nil => cases h
    | cons fault fs =>
      cases fault with
      | ok => exact hserved (ih _ ((Attempt.after_outcome ..).symm.trans h))
      | before e => exact ih _ h
      | after e => exact hserved (ih _ ((Attempt.after_outcome ..).symm.trans h))

/-- A call whose errors all raise was answered, if the attempt returns. -/
theorem attempt_await_ok {op : Op} {k : Except δ (Res op) → Prog Op Res δ ε α}
    {plan : List (Fault φ)} {w : σ} {a : α}
    (h : ((Prog.await op k).attempt S tid plan w).outcome = some (.ok a))
    (hraise : ∀ e, ∃ x, k (.error e) = .throw x) :
    ∃ r fs, (S.answer tid op w).1 = .ok r ∧
      ((k (.ok r)).attempt S tid fs (S.answer tid op w).2).outcome = some (.ok a) ∧
      ((Prog.await op k).attempt S tid plan w).landed =
        op :: ((k (.ok r)).attempt S tid fs (S.answer tid op w).2).landed := by
  -- Whatever error the program has heard, it has raised.
  have herror : ∀ {e : δ} {fs : List (Fault φ)} {w' : σ},
      ((k (.error e)).attempt S tid fs w').outcome ≠ some (.ok a) := by
    intro e fs w' hout
    obtain ⟨x, hx⟩ := hraise e
    rw [hx, attempt_throw] at hout
    cases hout
  cases plan with
  | nil => cases h
  | cons fault fs =>
    cases fault with
    | ok =>
      have hout := (Attempt.after_outcome ..).symm.trans h
      cases hr : (S.answer tid op w).1 with
      | error e =>
        rw [hr] at hout
        exact absurd hout herror
      | ok r =>
        rw [hr] at hout
        refine ⟨r, fs, rfl, hout, ?_⟩
        simp only [attempt, hr, Attempt.after_ok]
    | before e => exact absurd h herror
    | after e => exact absurd ((Attempt.after_outcome ..).symm.trans h) herror

/-- **What a guarded outcome has seen.** If an answer in `M` shows that `G` holds, and nothing
revokes `G`, then `G` holds when the program ends as in `R`. A lost call shows nothing. -/
theorem attempt_guarded {G : σ → Prop} {M : (op : Op) → Except δ (Res op) → Prop}
    {B : Op → Prop} {R : Except ε α → Prop} {p : Prog Op Res δ ε α} (hp : p.Uses P)
    (hg : p.Guarded M B R) (hstable : ∀ op w, P op → G w → G (S.answer tid op w).2)
    (hshows : ∀ op w, P op → M op (S.answer tid op w).1 → G (S.answer tid op w).2)
    (hlost : ∀ op e, ¬ M op (.error (S.lost e))) (plan : List (Fault φ)) (w : σ) {x : Except ε α}
    (hx : (p.attempt S tid plan w).outcome = some x) (hR : R x) :
    G (p.attempt S tid plan w).world := by
  induction p generalizing plan w with
  | pure a =>
    rw [attempt_pure] at hx
    exact absurd (Option.some.inj hx ▸ hR) hg
  | throw e =>
    rw [attempt_throw] at hx
    exact absurd (Option.some.inj hx ▸ hR) hg
  | await op k ih =>
    revert hx
    refine attempt_await (P := fun a => a.outcome = some x → G a.world) plan nofun
      (fun fs hx => ?_) (fun e fs hx => ?_) fun e fs hx => ?_
    · rw [Attempt.after_outcome] at hx
      rw [Attempt.after_world]
      by_cases hM : M op (S.answer tid op w).1
      · exact attempt_invariant (hp.2 _) hstable fs (hshows op w hp.1 hM)
      · exact ih _ (hp.2 _) (hg.2 _ hM) fs _ hx
    · exact ih _ (hp.2 _) (hg.2 _ (hlost op e)) fs w hx
    · rw [Attempt.after_outcome] at hx
      rw [Attempt.after_world]
      exact ih _ (hp.2 _) (hg.2 _ (hlost op e)) fs _ hx

/-- A call in `B` is carried out only after one of the answers was heard. -/
theorem attempt_guard_landed (tid : Nat) (marks : Op → Prop) {B : Op → Prop} {R : Except ε α → Prop}
    {p : Prog Op Res δ ε α} (hg : p.Guarded (fun op r => marks op ∧ ∃ a, r = .ok a) B R)
    (plan : List (Fault φ)) (w : σ) {op : Op}
    (hop : op ∈ (p.attempt S tid plan w).landed) (hB : B op) :
    ∃ op ∈ (p.attempt S tid plan w).landed, marks op := by
  induction p generalizing plan w with
  | pure a => rw [attempt_pure] at hop; cases hop
  | throw e => rw [attempt_throw] at hop; cases hop
  | await op' k ih =>
    -- The call at the root is not in `B`, so it is one of the later ones.
    have hserved : ∀ (a : Attempt Op ε σ α),
        (¬ (marks op' ∧ ∃ x, (S.answer tid op' w).1 = .ok x) → op ∈ a.landed →
          ∃ op'' ∈ a.landed, marks op'') →
        op ∈ (a.after op' (S.answer tid op' w).1).landed →
        ∃ op'' ∈ (a.after op' (S.answer tid op' w).1).landed, marks op'' := by
      intro a ha hmem
      cases hr : (S.answer tid op' w).1 with
      | error e =>
        rw [hr] at hmem ha
        exact ha (by simp) hmem
      | ok r =>
        rw [hr] at hmem ha
        rw [Attempt.after_ok] at hmem ⊢
        by_cases hm : marks op'
        · exact ⟨op', List.mem_cons_self, hm⟩
        · rcases List.mem_cons.mp hmem with rfl | hmem
          · exact absurd hB hg.1
          · obtain ⟨op'', h, h'⟩ := ha (fun h => hm h.1) hmem
            exact ⟨op'', List.mem_cons_of_mem op' h, h'⟩
    revert hop
    refine attempt_await (P := fun a => op ∈ a.landed → ∃ op ∈ a.landed, marks op) plan nofun
      (fun fs => ?_) (fun e fs => ?_) fun e fs => ?_
    · exact hserved _ fun hM hmem => ih _ (hg.2 _ hM) fs _ hmem
    · exact fun hmem => ih _ (hg.2 _ (by simp)) fs w hmem
    · exact hserved _ fun _ hmem => ih _ (hg.2 _ (by simp)) fs _ hmem

/-- Until a call in `marks` is carried out `I` holds, and from then on `J`, which the calls that may
still come keep. -/
theorem attempt_until (tid : Nat) (I J : σ → Prop) (marks : Op → Prop) {Q : Op → Prop}
    {p : Prog Op Res δ ε α} (hp : p.Uses P) (hlast : p.Thereafter marks Q)
    (hI : ∀ op w, P op → I w → ¬ marks op → I (S.answer tid op w).2)
    (hmark : ∀ op w, P op → I w → marks op →
      J (S.answer tid op w).2 ∧ ∃ r, (S.answer tid op w).1 = .ok r)
    (hJ : ∀ op w, Q op → J w → J (S.answer tid op w).2) (plan : List (Fault φ)) {w : σ}
    (hw : I w) :
    (I (p.attempt S tid plan w).world ∧ ∀ op ∈ (p.attempt S tid plan w).landed, ¬ marks op) ∨
      (J (p.attempt S tid plan w).world ∧ ∃ op ∈ (p.attempt S tid plan w).landed, marks op) := by
  induction p generalizing plan w with
  | pure a =>
    rw [attempt_pure]
    exact Or.inl ⟨hw, nofun⟩
  | throw e =>
    rw [attempt_throw]
    exact Or.inl ⟨hw, nofun⟩
  | await op k ih =>
    have hserved : ∀ r fs, (I ((((k r).attempt S tid fs (S.answer tid op w).2).after op
          (S.answer tid op w).1)).world ∧
        ∀ op' ∈ (((k r).attempt S tid fs (S.answer tid op w).2).after op
          (S.answer tid op w).1).landed, ¬ marks op') ∨
      (J ((((k r).attempt S tid fs (S.answer tid op w).2).after op
          (S.answer tid op w).1)).world ∧
        ∃ op' ∈ (((k r).attempt S tid fs (S.answer tid op w).2).after op
          (S.answer tid op w).1).landed, marks op') := by
      intro r fs
      rw [Attempt.after_world]
      by_cases hm : marks op
      · -- The mark is set here.
        obtain ⟨hnext, x, hx⟩ := hmark op w hp.1 hw hm
        refine Or.inr ⟨attempt_invariant (hlast.1 hm r) hJ fs hnext, op, ?_, hm⟩
        rw [hx, Attempt.after_ok]
        exact List.mem_cons_self
      · -- The mark is not set by this call, so it is set by a later one or not at all.
        have hnot : ∀ a : Attempt Op ε σ α, (∀ op' ∈ a.landed, ¬ marks op') →
            ∀ op' ∈ (a.after op (S.answer tid op w).1).landed, ¬ marks op' := by
          intro a ha op' hop'
          cases hr : (S.answer tid op w).1 with
          | error e => exact ha op' (by simpa [hr] using hop')
          | ok x =>
            rw [hr, Attempt.after_ok] at hop'
            rcases List.mem_cons.mp hop' with rfl | hop'
            · exact hm
            · exact ha op' hop'
        rcases ih r (hp.2 r) (hlast.2 r) fs (hI op w hp.1 hw hm) with
          ⟨hI', hnone⟩ | ⟨hJ', op', hop', hm'⟩
        · exact Or.inl ⟨hI', hnot _ hnone⟩
        · refine Or.inr ⟨hJ', op', ?_, hm'⟩
          cases hr : (S.answer tid op w).1 with
          | error e => exact hop'
          | ok x => exact List.mem_cons_of_mem op hop'
    refine attempt_await (P := fun a => (I a.world ∧ ∀ op ∈ a.landed, ¬ marks op) ∨
      (J a.world ∧ ∃ op ∈ a.landed, marks op)) plan (Or.inl ⟨hw, nofun⟩) (fun fs => ?_)
      (fun e fs => ?_) fun e fs => ?_
    · exact hserved _ fs
    · exact ih _ (hp.2 _) (hlast.2 _) fs hw
    · exact hserved _ fs

/-- Only calls of the program are carried out. -/
theorem attempt_uses (tid : Nat) {p : Prog Op Res δ ε α} (hp : p.Uses P)
    (plan : List (Fault φ)) (w : σ) : ∀ op ∈ (p.attempt S tid plan w).landed, P op := by
  induction p generalizing plan w with
  | pure a => simp
  | throw e => simp
  | await op k ih =>
    have hserved : ∀ a : Attempt Op ε σ α, (∀ op' ∈ a.landed, P op') →
        ∀ op' ∈ (a.after op (S.answer tid op w).1).landed, P op' := by
      intro a ha op' hmem
      cases hr : (S.answer tid op w).1 with
      | error e => exact ha op' (by simpa [hr] using hmem)
      | ok r =>
        rw [hr, Attempt.after_ok] at hmem
        rcases List.mem_cons.mp hmem with rfl | hmem
        · exact hp.1
        · exact ha op' hmem
    refine attempt_await (P := fun a => ∀ op' ∈ a.landed, P op') plan (by simp) (fun fs => ?_)
      (fun e fs => ?_) fun e fs => ?_
    · exact hserved _ (ih _ (hp.2 _) fs _)
    · exact ih _ (hp.2 _) fs w
    · exact hserved _ (ih _ (hp.2 _) fs _)

theorem alone_uses (tid : Nat) {p : Prog Op Res δ ε α} (hp : p.Uses P) (w : σ) :
    ∀ op ∈ (p.alone S tid w).landed, P op := by
  induction p generalizing w with
  | pure a => simp
  | throw e => simp
  | await op k ih =>
    intro op' hmem
    rw [alone_await] at hmem
    cases hr : (S.answer tid op w).1 with
    | error e => exact ih _ (hp.2 _) _ op' (by simpa [hr] using hmem)
    | ok r =>
      rw [hr, Attempt.after_ok] at hmem
      rcases List.mem_cons.mp hmem with rfl | hmem
      · exact hp.1
      · exact ih _ (hp.2 _) _ op' hmem

/-- **A call in `B` that a run alone does not come to.** While `I` holds no answer is one of `M`, so
the guard stands; and the calls that are not in `B` keep `I`. -/
theorem alone_guarded {I : σ → Prop} {M : (op : Op) → Except δ (Res op) → Prop} {B : Op → Prop}
    {R : Except ε α → Prop} {p : Prog Op Res δ ε α} (hg : p.Guarded M B R)
    (hstable : ∀ op w, ¬ B op → I w → I (S.answer tid op w).2)
    (hM : ∀ op w, I w → ¬ M op (S.answer tid op w).1) {w : σ} (hw : I w) :
    ∀ op ∈ (p.alone S tid w).landed, ¬ B op := by
  induction p generalizing w with
  | pure a => simp
  | throw e => simp
  | await op k ih =>
    intro op' hmem
    have hrest := ih _ (hg.2 _ (hM op w hw)) (hstable op w hg.1 hw)
    rw [alone_await] at hmem
    cases hr : (S.answer tid op w).1 with
    | error e => exact hrest op' (by simpa [hr] using hmem)
    | ok r =>
      rw [hr, Attempt.after_ok] at hmem
      rcases List.mem_cons.mp hmem with rfl | hmem
      · exact hg.1
      · exact hrest op' (by rw [hr]; exact hmem)

/-- What the calls of a program keep, a run alone keeps. -/
theorem Runs.keeps {I : σ → Prop} {p : Prog Op Res δ ε α} (hp : p.Uses P)
    (hstable : ∀ op w, P op → I w → I (S.answer tid op w).2) {w w' : σ} {x : α} {l : List Op}
    (h : p.Runs S tid w x w' l) (hw : I w) : I w' := by
  induction p generalizing w l with
  | pure a =>
    cases h
    exact hw
  | throw e => cases h
  | await op k ih =>
    obtain ⟨rest, hrest, -⟩ := runs_await.mp h
    exact ih _ (hp.2 _) hrest (hstable op w hp.1 hw)

/-! ## What an attempt ends with -/

section Ending

/-- The outcome, if there is one, and the state it leaves. -/
def ending (S : Server Op Res δ φ σ) (tid : Nat) (p : Prog Op Res δ ε α) (plan : List (Fault φ))
    (w : σ) : Option (Except ε α) × σ :=
  ((p.attempt S tid plan w).outcome, (p.attempt S tid plan w).world)

variable {op : Op} {k : Except δ (Res op) → Prog Op Res δ ε α} {w : σ} {fs : List (Fault φ)}

@[simp] theorem ending_pure (a : α) (plan : List (Fault φ)) (w : σ) :
    (Prog.pure a : Prog Op Res δ ε α).ending S tid plan w = (some (.ok a), w) := by
  simp only [ending, attempt_pure]

@[simp] theorem ending_throw (e : ε) (plan : List (Fault φ)) (w : σ) :
    (Prog.throw e : Prog Op Res δ ε α).ending S tid plan w = (some (.error e), w) := by
  simp only [ending, attempt_throw]

@[simp] theorem ending_nil : (Prog.await op k).ending S tid [] w = (none, w) := rfl

@[simp] theorem ending_ok : (Prog.await op k).ending S tid (.ok :: fs) w =
    (k (S.answer tid op w).1).ending S tid fs (S.answer tid op w).2 := by
  simp only [ending, attempt, Attempt.after_outcome, Attempt.after_world]

@[simp] theorem ending_before (e : φ) : (Prog.await op k).ending S tid (.before e :: fs) w =
    (k (.error (S.lost e))).ending S tid fs w := by
  simp only [ending, attempt]

@[simp] theorem ending_after (e : φ) : (Prog.await op k).ending S tid (.after e :: fs) w =
    (k (.error (S.lost e))).ending S tid fs (S.answer tid op w).2 := by
  simp only [ending, attempt, Attempt.after_outcome, Attempt.after_world]

/-- `n` calls are answered and the next one meets `f`. -/
def Meets (n : Nat) (f : Fault φ) (plan : List (Fault φ)) : Prop :=
  ∃ rest, plan = List.replicate n .ok ++ f :: rest

variable {n : Nat} {f g : Fault φ} {plan : List (Fault φ)}

@[simp] theorem not_meets_nil : ¬ Meets n f ([] : List (Fault φ)) := by
  intro ⟨rest, h⟩
  cases n <;> cases h

@[simp] theorem meets_zero : Meets 0 f (g :: fs) ↔ g = f := by
  constructor
  · intro ⟨rest, h⟩
    exact (List.cons.inj h).1
  · intro h
    exact ⟨fs, by rw [h]; rfl⟩

@[simp] theorem meets_succ : Meets (n + 1) f (g :: fs) ↔ g = .ok ∧ Meets n f fs := by
  constructor
  · intro ⟨rest, h⟩
    obtain ⟨hg, hfs⟩ := List.cons.inj h
    exact ⟨hg, rest, hfs⟩
  · intro ⟨hg, rest, h⟩
    exact ⟨rest, by rw [hg, h]; rfl⟩

/-- One call meets one fault. -/
theorem Meets.unique (hf : Meets n f plan) (hg : Meets n g plan) : f = g := by
  obtain ⟨rest, rfl⟩ := hf
  obtain ⟨rest', h⟩ := hg
  exact (List.cons.inj (List.append_cancel_left h)).1

end Ending

/-! ## Attempts in a row -/

/-- Attempt a program under one plan after the other, each from the state the one before it left,
until an attempt is accepted. The answer is that attempt, if there is one. The attempts are
numbered downwards; `p i` is what attempt `i` runs. -/
def retry (S : Server Op Res δ φ σ) (p : Nat → Prog Op Res δ ε α) (accepted : Except ε α → Bool) :
    List (List (Fault φ)) → σ → Option (Attempt Op ε σ α)
  | [], _ => none
  | plan :: plans, w =>
    let a := (p plans.length).attempt S plans.length plan w
    if a.outcome.any accepted then some a else retry S p accepted plans a.world

/-- `C` holds of every attempt that `retry` makes and that is not accepted: of the state it starts
in and of what it leaves. -/
def EachRejected (S : Server Op Res δ φ σ) (p : Nat → Prog Op Res δ ε α)
    (accepted : Except ε α → Bool) (C : σ → Attempt Op ε σ α → Prop) :
    List (List (Fault φ)) → σ → Prop
  | [], _ => True
  | plan :: plans, w =>
    let a := (p plans.length).attempt S plans.length plan w
    a.outcome.any accepted = false → C w a ∧ EachRejected S p accepted C plans a.world

variable {p : Nat → Prog Op Res δ ε α} {accepted : Except ε α → Bool}

/-- The first attempt is accepted, or the answer is that of the remaining ones. -/
theorem retry_cons {plan : List (Fault φ)} {plans : List (List (Fault φ))} {w : σ}
    {a : Attempt Op ε σ α} (h : retry S p accepted (plan :: plans) w = some a) :
    ((p plans.length).attempt S plans.length plan w = a ∧ a.outcome.any accepted = true) ∨
      (((p plans.length).attempt S plans.length plan w).outcome.any accepted = false ∧
        retry S p accepted plans ((p plans.length).attempt S plans.length plan w).world =
          some a) := by
  unfold retry at h
  dsimp only at h
  split at h
  · next hacc =>
    have ha := Option.some.inj h
    exact Or.inl ⟨ha, ha ▸ hacc⟩
  · next hacc => exact Or.inr ⟨by simpa using hacc, h⟩

/-- **The retry rule.** An invariant `I` of the states between attempts, kept by every attempt
that is not accepted, is what the accepted attempt starts from. -/
theorem retry_accepted {I : σ → Prop} {Q : Attempt Op ε σ α → Prop}
    (hkeep : ∀ i plan w, I w → ((p i).attempt S i plan w).outcome.any accepted = false →
      I ((p i).attempt S i plan w).world)
    (hlast : ∀ i plan w, I w → ((p i).attempt S i plan w).outcome.any accepted = true →
      Q ((p i).attempt S i plan w))
    {plans : List (List (Fault φ))} {w : σ} {a : Attempt Op ε σ α} (hI : I w)
    (h : retry S p accepted plans w = some a) : Q a := by
  induction plans generalizing w with
  | nil => cases h
  | cons plan plans ih =>
    rcases retry_cons h with ⟨ha, hacc⟩ | ⟨hrej, hrest⟩
    · exact ha ▸ hlast _ plan w hI (ha ▸ hacc)
    · exact ih (hkeep _ plan w hI hrej) hrest

/-- …and likewise for what is asked of the attempts that are not accepted. -/
theorem eachRejected_of_invariant {I : σ → Prop} {C : σ → Attempt Op ε σ α → Prop}
    (hkeep : ∀ i plan w, I w → ((p i).attempt S i plan w).outcome.any accepted = false →
      I ((p i).attempt S i plan w).world)
    (hC : ∀ i plan w, I w → C w ((p i).attempt S i plan w))
    {plans : List (List (Fault φ))} {w : σ} (hI : I w) :
    EachRejected S p accepted C plans w := by
  induction plans generalizing w with
  | nil => trivial
  | cons plan plans ih => exact fun hrej => ⟨hC _ plan w hI, ih (hkeep _ plan w hI hrej)⟩

end Prog

namespace Config

variable {Op : Type} {Res : Op → Type} {δ ε φ σ α : Type} {S : Server Op Res δ φ σ} {i : Nat}
  {x : α} {w' : σ}

/-- **What a program does alone it does in a pool** that lets nobody else come between. -/
theorem run_of_runs {c : Config Op Res δ ε φ σ α} {l : List Op}
    (h : (c.prog i).Runs S i c.world x w' l) : ∃ ls d, (∀ l ∈ ls, l = (i, .ok)) ∧
      c.run S ls = some d ∧ d.prog i = .pure x ∧ d.world = w' := by
  generalize hp : c.prog i = p at h
  induction p generalizing c l with
  | pure a =>
    cases h
    exact ⟨[], c, nofun, rfl, hp, rfl⟩
  | throw e => cases h
  | await op k ih =>
    obtain ⟨rest, hrest, -⟩ := Prog.runs_await.mp h
    obtain ⟨ls, d, hls, hrun, hend, hworld⟩ :=
      ih _ (c := c.next S i .ok op k) (next_prog_self i .ok op k) hrest
    refine ⟨(i, .ok) :: ls, d, ?_, ?_, hend, hworld⟩
    · intro l hl
      rcases List.mem_cons.mp hl with rfl | hl
      · rfl
      · exact hls l hl
    · unfold run
      rw [step_of_await hp]
      exact hrun

end Config

end Await
