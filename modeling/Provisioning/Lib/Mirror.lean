import Provisioning.Lib.Attempt

/-!
# Two servers

A program is alone with its server only in a manner of speaking: others are at work on it too. Two
models of one server may say different things about these others, and what one of them finds out as
it goes along the other may have to be told beforehand. When both answer every call alike, a
program cannot tell them apart, and what is known of its attempts with the one holds of those with
the other.
-/

namespace Await

/-- How a server `S` is seen as a server `T` that is told of each of the calls to come what the
others do before it, and what there is to be seen of the calls that are carried out. -/
structure Mirror (Op σ τ X β : Type) where
  view : σ → List X → τ
  seen : σ → List β
  shows : Op → Option β

namespace Mirror

open Prog

variable {Op : Type} {Res : Op → Type} {δ ε φ σ τ X β α : Type} (M : Mirror Op σ τ X β)
  (S : Server Op Res δ φ σ) (T : Server Op Res δ φ τ) (tid : Nat) (I : σ → Prop)

/-- The call is answered alike, and seen when it is carried out. -/
structure Answers (op : Op) (s : σ) : Prop where
  told : ∃ x, ∀ xs, T.answer tid op (M.view s (x :: xs)) =
    ((S.answer tid op s).1, M.view (S.answer tid op s).2 xs)
  seen : M.seen (S.answer tid op s).2 =
    M.seen s ++ (landing op (S.answer tid op s).1).filterMap M.shows
  keeps : I (S.answer tid op s).2

/-- An attempt goes alike. -/
structure Reflects (p : Prog Op Res δ ε α) (plan : List (Fault φ)) (s : σ) : Prop where
  told : ∃ xs, p.attempt T tid plan (M.view s xs) =
    ⟨(p.attempt S tid plan s).outcome, M.view (p.attempt S tid plan s).world [],
      (p.attempt S tid plan s).landed⟩
  seen : M.seen (p.attempt S tid plan s).world =
    M.seen s ++ (p.attempt S tid plan s).landed.filterMap M.shows
  keeps : I (p.attempt S tid plan s).world

variable {M S T tid I} {s : σ}

theorem reflects_pure (hs : I s) (a : α) (plan : List (Fault φ)) :
    M.Reflects S T tid I (Prog.pure a : Prog Op Res δ ε α) plan s := by
  refine ⟨⟨[], ?_⟩, ?_, ?_⟩
  · rw [attempt_pure, attempt_pure]
  · rw [attempt_pure]
    exact (List.append_nil _).symm
  · rw [attempt_pure]
    exact hs

theorem reflects_throw (hs : I s) (e : ε) (plan : List (Fault φ)) :
    M.Reflects S T tid I (Prog.throw e : Prog Op Res δ ε α) plan s := by
  refine ⟨⟨[], ?_⟩, ?_, ?_⟩
  · rw [attempt_throw, attempt_throw]
  · rw [attempt_throw]
    exact (List.append_nil _).symm
  · rw [attempt_throw]
    exact hs

variable {op : Op} {k : Except δ (Res op) → Prog Op Res δ ε α}

theorem after_landed (a : Attempt Op ε σ α) (r : Except δ (Res op)) :
    (a.after op r).landed = landing op r ++ a.landed := by
  cases r <;> rfl

theorem after_eq (a : Attempt Op ε σ α) (r : Except δ (Res op)) :
    (⟨a.outcome, M.view a.world [], a.landed⟩ : Attempt Op ε τ α).after op r =
      ⟨(a.after op r).outcome, M.view (a.after op r).world [], (a.after op r).landed⟩ := by
  cases r <;> rfl

/-- **One call**, and what it leads to. -/
theorem reflects_await (hlost : T.lost = S.lost) (hs : I s) (hop : M.Answers S T tid I op s)
    (hanswer : ∀ plan, M.Reflects S T tid I (k (S.answer tid op s).1) plan (S.answer tid op s).2)
    (hbefore : ∀ e plan, M.Reflects S T tid I (k (.error (S.lost e))) plan s)
    (hafter : ∀ e plan,
      M.Reflects S T tid I (k (.error (S.lost e))) plan (S.answer tid op s).2)
    (plan : List (Fault φ)) : M.Reflects S T tid I (.await op k) plan s := by
  obtain ⟨x, hx⟩ := hop.told
  -- The rest of an attempt, after a call that was served.
  have hserved : ∀ r fs, M.Reflects S T tid I (k r) fs (S.answer tid op s).2 →
      (∃ xs, ((k r).attempt T tid fs (T.answer tid op (M.view s (x :: xs))).2).after op
          (T.answer tid op (M.view s (x :: xs))).1 =
        ⟨(((k r).attempt S tid fs (S.answer tid op s).2).after op (S.answer tid op s).1).outcome,
          M.view (((k r).attempt S tid fs (S.answer tid op s).2).after op
            (S.answer tid op s).1).world [],
          (((k r).attempt S tid fs (S.answer tid op s).2).after op
            (S.answer tid op s).1).landed⟩) ∧
      M.seen (((k r).attempt S tid fs (S.answer tid op s).2).after op
          (S.answer tid op s).1).world =
        M.seen s ++ (((k r).attempt S tid fs (S.answer tid op s).2).after op
          (S.answer tid op s).1).landed.filterMap M.shows ∧
      I (((k r).attempt S tid fs (S.answer tid op s).2).after op (S.answer tid op s).1).world := by
    intro r fs h
    obtain ⟨xs, hxs⟩ := h.told
    refine ⟨⟨xs, ?_⟩, ?_, ?_⟩
    · rw [hx, hxs]
      exact after_eq _ _
    · rw [Attempt.after_world, after_landed, h.seen, hop.seen, List.filterMap_append,
        List.append_assoc]
    · rw [Attempt.after_world]
      exact h.keeps
  cases plan with
  | nil => exact ⟨⟨[], rfl⟩, (List.append_nil _).symm, hs⟩
  | cons f fs =>
    cases f with
    | ok =>
      obtain ⟨⟨xs, htold⟩, hseen, hkeeps⟩ := hserved _ fs (hanswer fs)
      refine ⟨⟨x :: xs, ?_⟩, hseen, hkeeps⟩
      refine Eq.trans ?_ htold
      rw [attempt]
      rw [hx]
    | before e =>
      obtain ⟨⟨xs, htold⟩, hseen, hkeeps⟩ := hbefore e fs
      refine ⟨⟨xs, ?_⟩, hseen, hkeeps⟩
      rw [attempt, hlost]
      exact htold
    | after e =>
      obtain ⟨⟨xs, htold⟩, hseen, hkeeps⟩ := hserved _ fs (hafter e fs)
      refine ⟨⟨x :: xs, ?_⟩, hseen, hkeeps⟩
      refine Eq.trans ?_ htold
      rw [attempt, hlost]

/-- **A program cannot tell the servers apart** when all its calls are answered alike. -/
theorem reflects_of_uses {P : Op → Prop} {p : Prog Op Res δ ε α} (hp : p.Uses P)
    (hlost : T.lost = S.lost) (hanswers : ∀ op s, P op → I s → M.Answers S T tid I op s)
    (plan : List (Fault φ)) (hs : I s) : M.Reflects S T tid I p plan s := by
  induction p generalizing plan s with
  | pure a => exact reflects_pure hs a plan
  | throw e => exact reflects_throw hs e plan
  | await op k ih =>
    have hop := hanswers op s hp.1 hs
    exact reflects_await hlost hs hop (fun plan => ih _ (hp.2 _) plan hop.keeps)
      (fun e plan => ih _ (hp.2 _) plan hs) (fun e plan => ih _ (hp.2 _) plan hop.keeps) plan

end Mirror

end Await
