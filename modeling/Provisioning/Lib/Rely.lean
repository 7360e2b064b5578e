import Provisioning.Lib.Pool

/-!
# What a program ends with, amid interference

`Guarded` speaks of what a program has heard, and holds whatever the server is. This file is about
what the server is left with. A program in a pool is followed alone: each of its calls may be lost
in either way, and before each of them the others change the state, as far as a relation `rely`
lets them. `Ensures` says that wherever the program then ends, its outcome and the state its last
call left satisfy the postcondition.

Nothing is said of a program that never ends. One that dies has not ended, so a postcondition
about returning is one about the attempts that get to their end.
-/

namespace Await

namespace Prog

variable {Op : Type} {Res : Op → Type} {δ ε φ σ α β γ : Type}

/-- From `w`, the program ends only as `Q` says. -/
def Ensures (S : Server Op Res δ φ σ) (tid : Nat) (rely : σ → σ → Prop)
    (Q : Except ε α → σ → Prop) : Prog Op Res δ ε α → σ → Prop
  | .pure a, w => Q (.ok a) w
  | .throw e, w => Q (.error e) w
  | .await op k, w => ∀ w', rely w w' → ∀ f : Fault φ,
      (k (S.heard tid op w' f)).Ensures S tid rely Q (S.left tid op w' f)

/-- A postcondition of the programs that return: an exception satisfies it. -/
def OnReturn (Q : α → σ → Prop) : Except ε α → σ → Prop
  | .ok a, w => Q a w
  | .error _, _ => True

section Ensures

variable {S : Server Op Res δ φ σ} {tid : Nat} {rely : σ → σ → Prop} {Q : Except ε α → σ → Prop}
  {w : σ}

@[simp] theorem onReturn_ok (Q : α → σ → Prop) (a : α) :
    (OnReturn Q : Except ε α → σ → Prop) (.ok a) w ↔ Q a w := Iff.rfl
@[simp] theorem onReturn_error (Q : α → σ → Prop) (e : ε) :
    (OnReturn Q : Except ε α → σ → Prop) (.error e) w := trivial

@[simp] theorem ensures_pure {a : α} :
    (Prog.pure a : Prog Op Res δ ε α).Ensures S tid rely Q w ↔ Q (.ok a) w := Iff.rfl
@[simp] theorem ensures_throw {e : ε} :
    (Prog.throw e : Prog Op Res δ ε α).Ensures S tid rely Q w ↔ Q (.error e) w := Iff.rfl
@[simp] theorem ensures_await {op : Op} {k : Except δ (Res op) → Prog Op Res δ ε α} :
    (Prog.await op k).Ensures S tid rely Q w ↔ ∀ w', rely w w' → ∀ f : Fault φ,
      (k (S.heard tid op w' f)).Ensures S tid rely Q (S.left tid op w' f) := Iff.rfl

theorem Ensures.bind {R : Except ε α → σ → Prop} {Q : Except ε β → σ → Prop}
    {p : Prog Op Res δ ε α} {f : α → Prog Op Res δ ε β} (hp : p.Ensures S tid rely R w)
    (ho : ∀ a w', R (.ok a) w' → (f a).Ensures S tid rely Q w')
    (he : ∀ e w', R (.error e) w' → Q (.error e) w') : (p.bind f).Ensures S tid rely Q w := by
  induction p generalizing w with
  | pure a => exact ho a w hp
  | throw e => exact he e w hp
  | await op k ih => exact fun w' hw f => ih _ (hp w' hw f)

/-- In sequence, where only returning matters. -/
theorem Ensures.andThen {R : α → σ → Prop} {Q : β → σ → Prop} {p : Prog Op Res δ ε α}
    {f : α → Prog Op Res δ ε β} (hp : p.Ensures S tid rely (OnReturn R) w)
    (hf : ∀ a w', R a w' → (f a).Ensures S tid rely (OnReturn Q) w') :
    (p.bind f).Ensures S tid rely (OnReturn Q) w :=
  hp.bind hf fun _ _ _ => trivial

theorem Ensures.tryCatch {R : Except ε α → σ → Prop} {p : Prog Op Res δ ε α}
    {h : ε → Prog Op Res δ ε α} (hp : p.Ensures S tid rely R w)
    (ho : ∀ a w', R (.ok a) w' → Q (.ok a) w')
    (he : ∀ e w', R (.error e) w' → (h e).Ensures S tid rely Q w') :
    (p.tryCatch h).Ensures S tid rely Q w := by
  induction p generalizing w with
  | pure a => exact ho a w hp
  | throw e => exact he e w hp
  | await op k ih => exact fun w' hw f => ih _ (hp w' hw f)

/-- One call: what is heard when it is answered, and anything when it raises. -/
theorem ensures_call {raise : δ → ε} {op : Op} {R : Res op → σ → Prop}
    (h : ∀ w' r, rely w w' → (S.answer tid op w').1 = .ok r → R r (S.answer tid op w').2) :
    (call raise op : Prog Op Res δ ε (Res op)).Ensures S tid rely (OnReturn R) w := by
  intro w' hw f
  cases hr : S.heard tid op w' f with
  | error e => trivial
  | ok r =>
    obtain ⟨rfl, hanswer⟩ := Server.heard_eq_ok hr
    exact h w' r hw hanswer

/-- **The loop rule**, for a loop whose rounds emit: round `x` adds `g x` to what has been
emitted. -/
theorem ensures_forEach {ω : Type} {I : List ω → σ → Prop} {g : γ → List ω}
    {f : γ → Prog Op Res δ ε Unit} {xs : List γ}
    (h : ∀ x ∈ xs, ∀ out w, I out w →
      (f x).Ensures S tid rely (OnReturn fun _ w' => I (out ++ g x) w') w)
    {out : List ω} (hI : I out w) :
    (Prog.forEach xs f).Ensures S tid rely (OnReturn fun _ w' => I (out ++ xs.flatMap g) w') w := by
  induction xs generalizing out w with
  | nil => simpa using hI
  | cons x xs ih =>
    apply (h x List.mem_cons_self out w hI).andThen
    intro _ w' hx
    have hrest := ih (fun y hy => h y (List.mem_cons_of_mem x hy)) hx
    simpa only [List.flatMap_cons, List.append_assoc] using hrest

/-- What holds of every ending, every program ensures. -/
theorem ensures_of_forall (hQ : ∀ x w, Q x w) (p : Prog Op Res δ ε α) (w : σ) :
    p.Ensures S tid rely Q w := by
  induction p generalizing w with
  | pure a => exact hQ _ _
  | throw e => exact hQ _ _
  | await op k ih => exact fun w' _ f => ih _ _

/-- A loop that returns has got through each of its rounds. -/
theorem ensures_forEach_of_mem {C : Prop} {f : γ → Prog Op Res δ ε Unit} {x : γ} {xs : List γ}
    (hx : x ∈ xs) (h : ∀ w, (f x).Ensures S tid rely (OnReturn fun _ _ => C) w) (w : σ) :
    (Prog.forEach xs f).Ensures S tid rely (OnReturn fun _ _ => C) w := by
  have hdone : ∀ (p : Prog Op Res δ ε Unit) (w : σ), C →
      p.Ensures S tid rely (OnReturn fun _ _ => C) w := by
    intro p w hC
    refine ensures_of_forall (fun r _ => ?_) p w
    cases r with
    | ok a => exact hC
    | error e => trivial
  induction xs generalizing w with
  | nil => cases hx
  | cons y ys ih =>
    rcases List.mem_cons.mp hx with rfl | hx
    · exact (h w).andThen fun _ w' hC => hdone _ w' hC
    · have hrest : ∀ w, (f y).Ensures S tid rely (OnReturn fun _ _ => True) w := fun w =>
        ensures_of_forall (fun r _ => by cases r <;> trivial) _ w
      exact (hrest w).andThen fun _ w' _ => ih hx w'

end Ensures

end Prog

namespace Config

variable {Op : Type} {Res : Op → Type} {δ ε φ σ α : Type} {S : Server Op Res δ φ σ}
  {c d : Config Op Res δ ε φ σ α} {rely : σ → σ → Prop} {i : Nat} {Q : Except ε α → σ → Prop}

/-- The steps of the others keep to `rely`. -/
def Relies (S : Server Op Res δ φ σ) (rely : σ → σ → Prop) (i : Nat)
    (c : Config Op Res δ ε φ σ α) (l : Nat × Fault φ) : Prop :=
  l.1 ≠ i → ∀ d, c.step S l = some d → rely c.world d.world

/-- A program that alone is scheduled relies on nobody. -/
theorem along_relies {ls : List (Nat × Fault φ)} (h : ∀ l ∈ ls, l.1 = i) :
    c.Along S (Relies S rely i) ls := by
  induction ls generalizing c with
  | nil => trivial
  | cons l ls ih =>
    refine ⟨fun hi => absurd (h l List.mem_cons_self) hi, fun d _ => ?_⟩
    exact ih fun l' hl' => h l' (List.mem_cons_of_mem l hl')

/-- The program is in a state it ensures `Q` from, or the others have taken it on from there. -/
def Ensuring (S : Server Op Res δ φ σ) (rely : σ → σ → Prop) (i : Nat) (Q : Except ε α → σ → Prop)
    (c : Config Op Res δ ε φ σ α) : Prop :=
  ∃ w, rely w c.world ∧ (c.prog i).Ensures S i rely Q w

theorem Ensuring.step (htrans : ∀ u v w, rely u v → rely v w → rely u w)
    (hrefl : ∀ w, rely w w) {l : Nat × Fault φ} (h : c.Ensuring S rely i Q)
    (hC : c.Relies S rely i l) (hs : c.step S l = some d) : d.Ensuring S rely i Q := by
  obtain ⟨w, hw, hp⟩ := h
  by_cases hi : l.1 = i
  · obtain ⟨op, k, hprog, rfl⟩ := step_cases hs
    rw [← hi, hprog] at hp
    refine ⟨(c.next S l.1 l.2 op k).world, hrefl _, ?_⟩
    rw [← hi, next_prog_self]
    exact hp c.world hw l.2
  · refine ⟨w, htrans w c.world d.world hw (hC hi d hs), ?_⟩
    obtain ⟨op, k, -, rfl⟩ := step_cases hs
    rw [next_prog_of_ne (Ne.symm hi)]
    exact hp

/-- **What a program ensures alone amid `rely`, it ensures in a pool whose other steps keep to
`rely`.** -/
theorem run_ensures (hrefl : ∀ w, rely w w) (htrans : ∀ u v w, rely u v → rely v w → rely u w)
    {ls : List (Nat × Fault φ)} (h : (c.prog i).Ensures S i rely Q c.world)
    (hC : c.Along S (Relies S rely i) ls) (hr : c.run S ls = some d) : d.Ensuring S rely i Q :=
  run_invariant (fun _ _ _ hc hl hs => hc.step htrans hrefl hl hs)
    ⟨c.world, hrefl _, h⟩ hC hr

end Config

end Await
