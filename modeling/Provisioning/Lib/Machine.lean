import Mathlib.Logic.Relation

/-!
# Machines

A machine is a step function that may refuse a step. A run is the list of the steps that were
taken, so "at every moment of every run" is "after every list".

One machine refines another by way of a relation between their states that every step keeps: for
each step of the one, the other can take some number of steps, none included, to a state that is
related again. What is known of every state of the other then holds of the related ones.
-/

namespace Machine

variable {σ ℓ τ : Type}

/-- Take the steps one after the other. -/
def run (step : σ → ℓ → Option σ) : σ → List ℓ → Option σ
  | s, [] => some s
  | s, l :: ls => (step s l).bind fun t => run step t ls

variable {step : σ → ℓ → Option σ}

@[simp] theorem run_nil (s : σ) : run step s [] = some s := rfl
@[simp] theorem run_cons (s : σ) (l : ℓ) (ls : List ℓ) :
    run step s (l :: ls) = (step s l).bind fun t => run step t ls := rfl

/-- **What every step keeps, every run keeps.** -/
theorem run_invariant {I : σ → Prop} (hstep : ∀ s l t, I s → step s l = some t → I t)
    {s t : σ} {ls : List ℓ} (hs : I s) (h : run step s ls = some t) : I t := by
  induction ls generalizing s with
  | nil => exact Option.some.inj h ▸ hs
  | cons l ls ih =>
    obtain ⟨u, hu, hrest⟩ := Option.bind_eq_some_iff.mp h
    exact ih (hstep s l u hs hu) hrest

/-- …also where it speaks of the steps taken so far. -/
theorem run_trace {I : List ℓ → σ → Prop}
    (hstep : ∀ done s l t, I done s → step s l = some t → I (done ++ [l]) t)
    {s t : σ} {ls : List ℓ} (hs : I [] s) (h : run step s ls = some t) : I ls t := by
  suffices hrun : ∀ done s, I done s → run step s ls = some t → I (done ++ ls) t from
    hrun [] s hs h
  clear hs h s
  induction ls with
  | nil =>
    intro done s hs h
    rw [List.append_nil]
    exact Option.some.inj h ▸ hs
  | cons l ls ih =>
    intro done s hs h
    obtain ⟨u, hu, hrest⟩ := Option.bind_eq_some_iff.mp h
    have hdone := ih (done ++ [l]) u (hstep done s l u hs hu) hrest
    rwa [List.append_assoc] at hdone

theorem run_append (s : σ) (ls ls' : List ℓ) :
    run step s (ls ++ ls') = (run step s ls).bind fun t => run step t ls' := by
  induction ls generalizing s with
  | nil => rfl
  | cons l ls ih =>
    rw [List.cons_append, run_cons, run_cons, Option.bind_assoc]
    exact congrArg (step s l).bind (funext ih)

/-- A run, and one more step. -/
theorem run_concat {s t u : σ} {ls : List ℓ} {l : ℓ} (h : run step s ls = some t)
    (hl : step t l = some u) : run step s (ls ++ [l]) = some u := by
  rw [run_append, h, Option.bind_some, run_cons, hl, Option.bind_some, run_nil]

/-- …and what the steps of this one run keep. -/
theorem run_along {I : σ → Prop} {s t : σ} {ls : List ℓ} (hs : I s) (h : run step s ls = some t)
    (hstep : ∀ done l rest u v, ls = done ++ l :: rest → run step s done = some u →
      step u l = some v → I u → I v) : I t := by
  suffices hrest : ∀ rest done u, ls = done ++ rest → run step s done = some u → I u →
      run step u rest = some t → I t from hrest ls [] s rfl rfl hs h
  intro rest
  induction rest with
  | nil =>
    intro done u _ _ hu hrun
    exact Option.some.inj hrun ▸ hu
  | cons l rest ih =>
    intro done u hls hdone hu hrun
    obtain ⟨v, hv, hrun⟩ := Option.bind_eq_some_iff.mp hrun
    refine ih (done ++ [l]) v ?_ (run_concat hdone hv) (hstep done l rest u v hls hdone hv hu) hrun
    rw [hls, List.append_assoc]
    rfl

/-- **Simulation.** A relation that is kept step by step is kept by runs. -/
theorem run_refines {R : σ → τ → Prop} {Step : τ → τ → Prop}
    (hstep : ∀ s l t a, R s a → step s l = some t → ∃ b, Relation.ReflTransGen Step a b ∧ R t b)
    {s t : σ} {a : τ} {ls : List ℓ} (hs : R s a) (h : run step s ls = some t) :
    ∃ b, Relation.ReflTransGen Step a b ∧ R t b := by
  induction ls generalizing s a with
  | nil => exact ⟨a, .refl, Option.some.inj h ▸ hs⟩
  | cons l ls ih =>
    obtain ⟨u, hu, hrest⟩ := Option.bind_eq_some_iff.mp h
    obtain ⟨b, hab, hb⟩ := hstep s l u a hs hu
    obtain ⟨c, hbc, hc⟩ := ih hb hrest
    exact ⟨c, hab.trans hbc, hc⟩

end Machine
