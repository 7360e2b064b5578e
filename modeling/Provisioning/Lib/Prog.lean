import Mathlib.Logic.Function.Basic

/-!
# Programs as trees of awaited calls

A coroutine that talks to a server through `await` is a tree: at each node it has issued one
call, and for every answer that can come back there is one subtree. `Prog` is that tree, for an
arbitrary type of calls `Op` with answers `Res op`. Between two nodes the coroutine runs
undisturbed, so the nodes are exactly the points where another coroutine may be scheduled.

An answer is an `Except δ`: the errors `δ` a call can be answered with are a type of their own,
apart from the exceptions `ε` a program can raise. A call turns the ones into the others, and
whether an exception is caught is part of the tree (`tryCatch`). What a call does to the server is
not said here. `Pool` gives the meaning of several programs over one server, `Attempt` that of one
program which may be cut short.

The predicates of this file are the ways the proofs speak about a program without walking it:
`Uses` bounds the calls that can still be issued, `Ends` the outcomes that can still be reached,
and `Guarded` says what must have been heard before a call or an outcome.
-/

namespace Await

inductive Prog (Op : Type) (Res : Op → Type) (δ ε α : Type) : Type where
  | pure (a : α)
  | throw (e : ε)
  | await (op : Op) (k : Except δ (Res op) → Prog Op Res δ ε α)

namespace Prog

variable {Op : Type} {Res : Op → Type} {δ ε α β : Type}

protected def bind : Prog Op Res δ ε α → (α → Prog Op Res δ ε β) → Prog Op Res δ ε β
  | .pure a, f => f a
  | .throw e, _ => .throw e
  | .await op k, f => .await op fun r => (k r).bind f

protected def tryCatch : Prog Op Res δ ε α → (ε → Prog Op Res δ ε α) → Prog Op Res δ ε α
  | .pure a, _ => .pure a
  | .throw e, h => h e
  | .await op k, h => .await op fun r => (k r).tryCatch h

instance : Monad (Prog Op Res δ ε) where
  pure := .pure
  bind := .bind

instance : MonadExceptOf ε (Prog Op Res δ ε) where
  throw := .throw
  tryCatch := .tryCatch

/-- Issue one call and hand its answer on: an error is raised as an exception. -/
def call (raise : δ → ε) (op : Op) : Prog Op Res δ ε (Res op) :=
  .await op fun
    | .ok r => .pure r
    | .error e => .throw (raise e)

/-- `for x in xs: await f(x)`. -/
def forEach {γ : Type} : List γ → (γ → Prog Op Res δ ε Unit) → Prog Op Res δ ε Unit
  | [], _ => .pure ()
  | x :: xs, f => (f x).bind fun _ => forEach xs f

/-! ## Normal forms

The monad operations compute on constructors; these equations are how a `do` block is turned into
a tree. -/

@[simp] theorem pure_eq (a : α) : (Pure.pure a : Prog Op Res δ ε α) = .pure a := rfl

@[simp] theorem bind_eq (p : Prog Op Res δ ε α) (f : α → Prog Op Res δ ε β) :
    (p >>= f) = p.bind f := rfl

@[simp] theorem throw_eq (e : ε) : (MonadExcept.throw e : Prog Op Res δ ε α) = .throw e := rfl

@[simp] theorem tryCatch_eq (p : Prog Op Res δ ε α) (h : ε → Prog Op Res δ ε α) :
    (MonadExcept.tryCatch p h) = p.tryCatch h := rfl

@[simp] theorem bind_pure (a : α) (f : α → Prog Op Res δ ε β) :
    (Prog.pure a : Prog Op Res δ ε α).bind f = f a := rfl

@[simp] theorem bind_throw (e : ε) (f : α → Prog Op Res δ ε β) :
    (Prog.throw e : Prog Op Res δ ε α).bind f = .throw e := rfl

@[simp] theorem bind_await (op : Op) (k : Except δ (Res op) → Prog Op Res δ ε α)
    (f : α → Prog Op Res δ ε β) :
    (Prog.await op k).bind f = .await op fun r => (k r).bind f := rfl

@[simp] theorem tryCatch_pure (a : α) (h : ε → Prog Op Res δ ε α) :
    (Prog.pure a : Prog Op Res δ ε α).tryCatch h = .pure a := rfl

@[simp] theorem tryCatch_throw (e : ε) (h : ε → Prog Op Res δ ε α) :
    (Prog.throw e : Prog Op Res δ ε α).tryCatch h = h e := rfl

@[simp] theorem tryCatch_await (op : Op) (k : Except δ (Res op) → Prog Op Res δ ε α)
    (h : ε → Prog Op Res δ ε α) :
    (Prog.await op k).tryCatch h = .await op fun r => (k r).tryCatch h := rfl

@[simp] theorem forEach_nil {γ : Type} (f : γ → Prog Op Res δ ε Unit) :
    forEach [] f = .pure () := rfl

@[simp] theorem forEach_cons {γ : Type} (x : γ) (xs : List γ) (f : γ → Prog Op Res δ ε Unit) :
    forEach (x :: xs) f = (f x).bind fun _ => forEach xs f := rfl

theorem bind_assoc {γ : Type} (p : Prog Op Res δ ε α) (f : α → Prog Op Res δ ε β)
    (g : β → Prog Op Res δ ε γ) : (p.bind f).bind g = p.bind fun a => (f a).bind g := by
  induction p with
  | pure a => rfl
  | throw e => rfl
  | await op k ih => exact congrArg (Prog.await op) (funext ih)

theorem bind_pure_right (p : Prog Op Res δ ε α) : p.bind .pure = p := by
  induction p with
  | pure a => rfl
  | throw e => rfl
  | await op k ih => exact congrArg (Prog.await op) (funext ih)

/-- Run a program to its end, whichever it is, and hand that on. -/
def outcome (p : Prog Op Res δ ε α) : Prog Op Res δ ε (Except ε α) :=
  (p.bind fun a => .pure (.ok a)).tryCatch fun e => .pure (.error e)

/-- A clause around a program and what follows both is a choice by the program's end. -/
theorem tryCatch_bind_eq {p : Prog Op Res δ ε α} {h : ε → Prog Op Res δ ε α}
    {f : α → Prog Op Res δ ε β} {g : Except ε α → Prog Op Res δ ε β}
    (hok : ∀ a, g (.ok a) = f a) (herror : ∀ e, g (.error e) = (h e).bind f) :
    (p.tryCatch h).bind f = p.outcome.bind g := by
  induction p with
  | pure a => exact (hok a).symm
  | throw e => exact (herror e).symm
  | await op k ih => exact congrArg (Prog.await op) (funext ih)

/-! ## Where a program stands -/

/-- The call the program has issued, if it is still running. -/
def next? : Prog Op Res δ ε α → Option Op
  | .await op _ => some op
  | _ => none

/-- The program has returned or raised. -/
def Finished (p : Prog Op Res δ ε α) : Prop := p.next? = none

instance (p : Prog Op Res δ ε α) : Decidable p.Finished :=
  match p with
  | .pure _ => .isTrue rfl
  | .throw _ => .isTrue rfl
  | .await _ _ => .isFalse nofun

@[simp] theorem next?_pure (a : α) : (Prog.pure a : Prog Op Res δ ε α).next? = none := rfl
@[simp] theorem next?_throw (e : ε) : (Prog.throw e : Prog Op Res δ ε α).next? = none := rfl
@[simp] theorem next?_await (op : Op) (k : Except δ (Res op) → Prog Op Res δ ε α) :
    (Prog.await op k).next? = some op := rfl

theorem next?_of_await {p : Prog Op Res δ ε α} {op : Op}
    {k : Except δ (Res op) → Prog Op Res δ ε α} (h : p = .await op k) : p.next? = some op := by
  rw [h]
  rfl

@[simp] theorem finished_pure (a : α) : (Prog.pure a : Prog Op Res δ ε α).Finished := rfl
@[simp] theorem finished_throw (e : ε) : (Prog.throw e : Prog Op Res δ ε α).Finished := rfl
@[simp] theorem not_finished_await (op : Op) (k : Except δ (Res op) → Prog Op Res δ ε α) :
    ¬ (Prog.await op k).Finished := nofun

/-! ## The calls that can still be issued -/

/-- Every call in the tree satisfies `P`, whatever the answers are. -/
def Uses (P : Op → Prop) : Prog Op Res δ ε α → Prop
  | .pure _ => True
  | .throw _ => True
  | .await op k => P op ∧ ∀ r, (k r).Uses P

@[simp] theorem uses_pure {P : Op → Prop} (a : α) :
    (Prog.pure a : Prog Op Res δ ε α).Uses P := trivial
@[simp] theorem uses_throw {P : Op → Prop} (e : ε) :
    (Prog.throw e : Prog Op Res δ ε α).Uses P := trivial
@[simp] theorem uses_await {P : Op → Prop} {op : Op}
    {k : Except δ (Res op) → Prog Op Res δ ε α} :
    (Prog.await op k).Uses P ↔ P op ∧ ∀ r, (k r).Uses P := Iff.rfl

theorem Uses.bind {P : Op → Prop} {p : Prog Op Res δ ε α} {f : α → Prog Op Res δ ε β}
    (hp : p.Uses P) (hf : ∀ a, (f a).Uses P) : (p.bind f).Uses P := by
  induction p with
  | pure a => exact hf a
  | throw e => trivial
  | await op k ih => exact ⟨hp.1, fun r => ih r (hp.2 r)⟩

theorem Uses.tryCatch {P : Op → Prop} {p : Prog Op Res δ ε α} {h : ε → Prog Op Res δ ε α}
    (hp : p.Uses P) (hh : ∀ e, (h e).Uses P) : (p.tryCatch h).Uses P := by
  induction p with
  | pure a => trivial
  | throw e => exact hh e
  | await op k ih => exact ⟨hp.1, fun r => ih r (hp.2 r)⟩

theorem Uses.mono {P Q : Op → Prop} {p : Prog Op Res δ ε α} (hp : p.Uses P)
    (h : ∀ op, P op → Q op) : p.Uses Q := by
  induction p with
  | pure a => trivial
  | throw e => trivial
  | await op k ih => exact ⟨h op hp.1, fun r => ih r (hp.2 r)⟩

/-- The call the program has issued is one of them. -/
theorem Uses.of_next? {P : Op → Prop} {p : Prog Op Res δ ε α} (hp : p.Uses P) {op : Op}
    (hop : p.next? = some op) : P op := by
  cases p with
  | pure a => cases hop
  | throw e => cases hop
  | await op' k => exact Option.some.inj hop ▸ hp.1

theorem uses_of_finished {P : Op → Prop} {p : Prog Op Res δ ε α} (hp : p.Finished) : p.Uses P := by
  cases p with
  | pure a => trivial
  | throw e => trivial
  | await op k => cases hp

theorem uses_call {P : Op → Prop} {raise : δ → ε} {op : Op} (h : P op) :
    (call raise op : Prog Op Res δ ε (Res op)).Uses P :=
  ⟨h, fun r => by cases r <;> trivial⟩

theorem Uses.forEach {γ : Type} {P : Op → Prop} {f : γ → Prog Op Res δ ε Unit} :
    ∀ {xs : List γ}, (∀ x ∈ xs, (f x).Uses P) → (Prog.forEach xs f).Uses P
  | [], _ => trivial
  | x :: _, h =>
    (h x List.mem_cons_self).bind fun _ =>
      Uses.forEach fun y hy => h y (List.mem_cons_of_mem x hy)

/-! ## The outcomes that can still be reached -/

/-- Every leaf of the tree satisfies `Q`, whatever the answers are. -/
def Ends (Q : Except ε α → Prop) : Prog Op Res δ ε α → Prop
  | .pure a => Q (.ok a)
  | .throw e => Q (.error e)
  | .await _ k => ∀ r, (k r).Ends Q

@[simp] theorem ends_pure {Q : Except ε α → Prop} {a : α} :
    (Prog.pure a : Prog Op Res δ ε α).Ends Q ↔ Q (.ok a) := Iff.rfl
@[simp] theorem ends_throw {Q : Except ε α → Prop} {e : ε} :
    (Prog.throw e : Prog Op Res δ ε α).Ends Q ↔ Q (.error e) := Iff.rfl
@[simp] theorem ends_await {Q : Except ε α → Prop} {op : Op}
    {k : Except δ (Res op) → Prog Op Res δ ε α} :
    (Prog.await op k).Ends Q ↔ ∀ r, (k r).Ends Q := Iff.rfl

theorem Ends.bind {R : Except ε α → Prop} {Q : Except ε β → Prop} {p : Prog Op Res δ ε α}
    {f : α → Prog Op Res δ ε β} (hp : p.Ends R) (ho : ∀ a, R (.ok a) → (f a).Ends Q)
    (he : ∀ e, R (.error e) → Q (.error e)) : (p.bind f).Ends Q := by
  induction p with
  | pure a => exact ho a hp
  | throw e => exact he e hp
  | await op k ih => exact fun r => ih r (hp r)

theorem Ends.tryCatch {R Q : Except ε α → Prop} {p : Prog Op Res δ ε α}
    {h : ε → Prog Op Res δ ε α} (hp : p.Ends R) (ho : ∀ a, R (.ok a) → Q (.ok a))
    (he : ∀ e, R (.error e) → (h e).Ends Q) : (p.tryCatch h).Ends Q := by
  induction p with
  | pure a => exact ho a hp
  | throw e => exact he e hp
  | await op k ih => exact fun r => ih r (hp r)

/-! ## What holds at every point of the tree -/

/-- `Q` holds of the program and of everything it can go on as. -/
def Everywhere (Q : Prog Op Res δ ε α → Prop) : Prog Op Res δ ε α → Prop
  | .pure a => Q (.pure a)
  | .throw e => Q (.throw e)
  | .await op k => Q (.await op k) ∧ ∀ r, (k r).Everywhere Q

@[simp] theorem everywhere_pure {Q : Prog Op Res δ ε α → Prop} {a : α} :
    (Prog.pure a : Prog Op Res δ ε α).Everywhere Q ↔ Q (.pure a) := Iff.rfl
@[simp] theorem everywhere_throw {Q : Prog Op Res δ ε α → Prop} {e : ε} :
    (Prog.throw e : Prog Op Res δ ε α).Everywhere Q ↔ Q (.throw e) := Iff.rfl
@[simp] theorem everywhere_await {Q : Prog Op Res δ ε α → Prop} {op : Op}
    {k : Except δ (Res op) → Prog Op Res δ ε α} :
    (Prog.await op k).Everywhere Q ↔ Q (.await op k) ∧ ∀ r, (k r).Everywhere Q := Iff.rfl

theorem Everywhere.here {Q : Prog Op Res δ ε α → Prop} {p : Prog Op Res δ ε α}
    (h : p.Everywhere Q) : Q p := by
  cases p with
  | pure a => exact h
  | throw e => exact h
  | await op k => exact h.1

/-- What the calls of a program say about it, they say about it everywhere. -/
theorem Uses.everywhere {P : Op → Prop} {Q : Prog Op Res δ ε α → Prop} {p : Prog Op Res δ ε α}
    (hp : p.Uses P) (h : ∀ q : Prog Op Res δ ε α, q.Uses P → Q q) : p.Everywhere Q := by
  induction p with
  | pure a => exact h _ hp
  | throw e => exact h _ hp
  | await op k ih => exact ⟨h _ hp, fun r => ih r (hp.2 r)⟩

/-- A program whose calls are in `P`, and then another one. -/
theorem Everywhere.after {P : Op → Prop} {Q : Prog Op Res δ ε β → Prop} {p : Prog Op Res δ ε α}
    {f : α → Prog Op Res δ ε β} (hp : p.Uses P) (hawait : ∀ op k, P op → Q (.await op k))
    (hthrow : ∀ e, Q (.throw e)) (hf : ∀ a, (f a).Everywhere Q) : (p.bind f).Everywhere Q := by
  induction p with
  | pure a => exact hf a
  | throw e => exact hthrow e
  | await op k ih => exact ⟨hawait op _ hp.1, fun r => ih r (hp.2 r)⟩

/-! ## The calls of a program that is answered -/

/-- As long as its calls are answered, the program makes one in each of `calls`, in this order, and
is over. -/
def Follows : List (Op → Prop) → Prog Op Res δ ε α → Prop
  | [], p => p.Finished
  | P :: calls, .await op k => P op ∧ ∀ a, Follows calls (k (.ok a))
  | _ :: _, .pure _ => False
  | _ :: _, .throw _ => False

@[simp] theorem follows_nil {p : Prog Op Res δ ε α} : p.Follows [] ↔ p.Finished := by
  cases p <;> exact Iff.rfl
@[simp] theorem follows_await {P : Op → Prop} {calls : List (Op → Prop)} {op : Op}
    {k : Except δ (Res op) → Prog Op Res δ ε α} :
    (Prog.await op k).Follows (P :: calls) ↔ P op ∧ ∀ a, (k (.ok a)).Follows calls := Iff.rfl

theorem Follows.of_next? {P : Op → Prop} {calls : List (Op → Prop)} {p : Prog Op Res δ ε α}
    (hp : p.Follows (P :: calls)) : ∃ op, p.next? = some op ∧ P op := by
  cases p with
  | pure a => exact hp.elim
  | throw e => exact hp.elim
  | await op k => exact ⟨op, rfl, hp.1⟩

/-! ## What only remains to be done -/

/-- Once a call in `B` has been issued, all further ones are in `P`. -/
def Thereafter (B P : Op → Prop) : Prog Op Res δ ε α → Prop
  | .pure _ => True
  | .throw _ => True
  | .await op k => (B op → ∀ r, (k r).Uses P) ∧ ∀ r, (k r).Thereafter B P

section Thereafter

variable {B P : Op → Prop}

@[simp] theorem thereafter_pure (a : α) :
    (Prog.pure a : Prog Op Res δ ε α).Thereafter B P := trivial
@[simp] theorem thereafter_throw (e : ε) :
    (Prog.throw e : Prog Op Res δ ε α).Thereafter B P := trivial
@[simp] theorem thereafter_await {op : Op} {k : Except δ (Res op) → Prog Op Res δ ε α} :
    (Prog.await op k).Thereafter B P ↔
      (B op → ∀ r, (k r).Uses P) ∧ ∀ r, (k r).Thereafter B P := Iff.rfl

/-- Before the first call in `B` nothing is asked. -/
theorem Thereafter.after {p : Prog Op Res δ ε α} {f : α → Prog Op Res δ ε β}
    (hp : p.Uses fun op => ¬ B op) (hf : ∀ a, (f a).Thereafter B P) :
    (p.bind f).Thereafter B P := by
  induction p with
  | pure a => exact hf a
  | throw e => trivial
  | await op k ih => exact ⟨fun hop => absurd hop hp.1, fun r => ih r (hp.2 r)⟩

/-- A program without calls in `B` is asked nothing. -/
theorem Uses.thereafter {p : Prog Op Res δ ε α} (hp : p.Uses fun op => ¬ B op) :
    p.Thereafter B P := by
  induction p with
  | pure a => trivial
  | throw e => trivial
  | await op k ih => exact ⟨fun hop => absurd hop hp.1, fun r => ih r (hp.2 r)⟩

/-- What follows has only calls in `P`. -/
theorem Thereafter.bind {p : Prog Op Res δ ε α} {f : α → Prog Op Res δ ε β}
    (hp : p.Thereafter B P) (huses : ∀ a, (f a).Uses P) (hf : ∀ a, (f a).Thereafter B P) :
    (p.bind f).Thereafter B P := by
  induction p with
  | pure a => exact hf a
  | throw e => trivial
  | await op k ih => exact ⟨fun hop r => (hp.1 hop r).bind huses, fun r => ih r (hp.2 r)⟩

theorem Thereafter.tryCatch {p : Prog Op Res δ ε α} {h : ε → Prog Op Res δ ε α}
    (hp : p.Thereafter B P) (huses : ∀ e, (h e).Uses P) (hh : ∀ e, (h e).Thereafter B P) :
    (p.tryCatch h).Thereafter B P := by
  induction p with
  | pure a => trivial
  | throw e => exact hh e
  | await op k ih => exact ⟨fun hop r => (hp.1 hop r).tryCatch huses, fun r => ih r (hp.2 r)⟩

theorem thereafter_call (raise : δ → ε) (op : Op) :
    (call raise op : Prog Op Res δ ε (Res op)).Thereafter B P :=
  ⟨fun _ r => by cases r <;> trivial, fun r => by cases r <;> trivial⟩

end Thereafter

/-! ## How many calls there are -/

/-- On no way through the tree are there more than `n` calls. -/
def Within : Prog Op Res δ ε α → Nat → Prop
  | .pure _, _ => True
  | .throw _, _ => True
  | .await _ k, n => ∃ m, n = m + 1 ∧ ∀ r, (k r).Within m

section Within

variable {m n : Nat}

theorem Within.mono {p : Prog Op Res δ ε α} (h : p.Within m) (hmn : m ≤ n) : p.Within n := by
  induction p generalizing m n with
  | pure a => trivial
  | throw e => trivial
  | await op k ih =>
    obtain ⟨m', rfl, hk⟩ := h
    cases n with
    | zero => cases hmn
    | succ n => exact ⟨n, rfl, fun r => ih r (hk r) (Nat.le_of_succ_le_succ hmn)⟩

theorem Within.bind {p : Prog Op Res δ ε α} {f : α → Prog Op Res δ ε β} (hp : p.Within m)
    (hf : ∀ a, (f a).Within n) : (p.bind f).Within (m + n) := by
  induction p generalizing m with
  | pure a => exact (hf a).mono (Nat.le_add_left ..)
  | throw e => trivial
  | await op k ih =>
    obtain ⟨m', rfl, hk⟩ := hp
    exact ⟨m' + n, Nat.succ_add m' n, fun r => ih r (hk r)⟩

theorem Within.tryCatch {p : Prog Op Res δ ε α} {h : ε → Prog Op Res δ ε α} (hp : p.Within m)
    (hh : ∀ e, (h e).Within n) : (p.tryCatch h).Within (m + n) := by
  induction p generalizing m with
  | pure a => trivial
  | throw e => exact (hh e).mono (Nat.le_add_left ..)
  | await op k ih =>
    obtain ⟨m', rfl, hk⟩ := hp
    exact ⟨m' + n, Nat.succ_add m' n, fun r => ih r (hk r)⟩

theorem within_call (raise : δ → ε) (op : Op) :
    (call raise op : Prog Op Res δ ε (Res op)).Within 1 :=
  ⟨0, rfl, fun r => by cases r <;> trivial⟩

end Within

/-! ## What comes before what -/

/-- On every way through the tree, a call in `B` or an outcome in `R` comes only after a call was
heard to be answered as `M` says. -/
def Guarded (M : (op : Op) → Except δ (Res op) → Prop) (B : Op → Prop)
    (R : Except ε α → Prop) : Prog Op Res δ ε α → Prop
  | .pure a => ¬ R (.ok a)
  | .throw e => ¬ R (.error e)
  | .await op k => ¬ B op ∧ ∀ r, ¬ M op r → (k r).Guarded M B R

section Guarded

variable {M : (op : Op) → Except δ (Res op) → Prop} {B : Op → Prop} {R : Except ε α → Prop}

@[simp] theorem guarded_pure {a : α} :
    (Prog.pure a : Prog Op Res δ ε α).Guarded M B R ↔ ¬ R (.ok a) := Iff.rfl
@[simp] theorem guarded_throw {e : ε} :
    (Prog.throw e : Prog Op Res δ ε α).Guarded M B R ↔ ¬ R (.error e) := Iff.rfl
@[simp] theorem guarded_await {op : Op} {k : Except δ (Res op) → Prog Op Res δ ε α} :
    (Prog.await op k).Guarded M B R ↔ ¬ B op ∧ ∀ r, ¬ M op r → (k r).Guarded M B R := Iff.rfl

/-- An answer is a result or an error. -/
theorem forall_answer {ρ : Type} {P : Except δ ρ → Prop} :
    (∀ r, P r) ↔ (∀ a, P (.ok a)) ∧ ∀ e, P (.error e) := by
  refine ⟨fun h => ⟨fun a => h (.ok a), fun e => h (.error e)⟩, fun h r => ?_⟩
  cases r with
  | ok a => exact h.1 a
  | error e => exact h.2 e

/-- The first part either has been guarded when it returns, or leaves it to the second. -/
theorem Guarded.bind {R' : Except ε β → Prop} {p : Prog Op Res δ ε α} {f : α → Prog Op Res δ ε β}
    (hp : p.Guarded M B R) (ho : ∀ a, ¬ R (.ok a) → (f a).Guarded M B R')
    (he : ∀ e, ¬ R (.error e) → ¬ R' (.error e)) : (p.bind f).Guarded M B R' := by
  induction p with
  | pure a => exact ho a hp
  | throw e => exact he e hp
  | await op k ih => exact ⟨hp.1, fun r hr => ih r (hp.2 r hr)⟩

theorem Guarded.tryCatch {R' : Except ε α → Prop} {p : Prog Op Res δ ε α}
    {h : ε → Prog Op Res δ ε α} (hp : p.Guarded M B R) (ho : ∀ a, ¬ R (.ok a) → ¬ R' (.ok a))
    (he : ∀ e, ¬ R (.error e) → (h e).Guarded M B R') : (p.tryCatch h).Guarded M B R' := by
  induction p with
  | pure a => exact ho a hp
  | throw e => exact he e hp
  | await op k ih => exact ⟨hp.1, fun r hr => ih r (hp.2 r hr)⟩

/-- The call a guarded program has issued is none that has to wait. -/
theorem Guarded.of_next? {p : Prog Op Res δ ε α} (hp : p.Guarded M B R) {op : Op}
    (hop : p.next? = some op) : ¬ B op := by
  cases p with
  | pure a => cases hop
  | throw e => cases hop
  | await op' k => exact Option.some.inj hop ▸ hp.1

/-- One round of a loop that is guarded when it returns guards the loop; the others only have to
keep to it. -/
theorem Guarded.forEach {γ : Type} {x : γ} {xs : List γ} {f : γ → Prog Op Res δ ε Unit}
    (hx : x ∈ xs) (hf : (f x).Guarded M B fun r => r = .ok ())
    (hrest : ∀ y ∈ xs, (f y).Guarded M B fun _ => False) :
    (Prog.forEach xs f).Guarded M B fun r => r = .ok () := by
  induction xs with
  | nil => cases hx
  | cons y ys ih =>
    rcases List.mem_cons.mp hx with rfl | hx
    · exact hf.bind (fun _ ha => absurd rfl ha) fun _ _ => nofun
    · refine (hrest y List.mem_cons_self).bind (fun _ _ => ?_) fun _ _ => nofun
      exact ih hx fun z hz => hrest z (List.mem_cons_of_mem y hz)

/-- A loop whose rounds keep to it keeps to it. -/
theorem Guarded.loop {γ : Type} {xs : List γ} {f : γ → Prog Op Res δ ε Unit}
    (h : ∀ x ∈ xs, (f x).Guarded M B fun _ => False) :
    (Prog.forEach xs f).Guarded M B fun _ => False := by
  induction xs with
  | nil => exact id
  | cons x xs ih =>
    apply (h x List.mem_cons_self).bind
    · intro _ _
      exact ih fun y hy => h y (List.mem_cons_of_mem x hy)
    · intro _ h
      exact h

/-- A program without calls in `B` is guarded as far as its outcomes go. -/
theorem Uses.guarded {P : Op → Prop} {p : Prog Op Res δ ε α} (hp : p.Uses P)
    (hB : ∀ op, P op → ¬ B op) : p.Guarded M B fun _ => False := by
  induction p with
  | pure a => exact id
  | throw e => exact id
  | await op k ih => exact ⟨hB op hp.1, fun r _ => ih r (hp.2 r)⟩

end Guarded

end Prog

end Await
