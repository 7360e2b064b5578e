import Provisioning.Lib.Prog

/-!
# Programs interleaved over one server

A pool is a family of programs that share a server. One step lets one of them, `i`, have its
current call served and its answer delivered; the others do not move. A run is a list of such
choices, so "for every interleaving" is "for every list".

A call can fail in two ways, and a step says which (`Fault`): the request never reaches the server
(`before`), or it is served and the answer is lost on the way back (`after`). A program that
dies is one that is never scheduled again; a call that was still in flight when it died is served
by one last step. So the schedules range over crashes as well.

The history is what an omniscient observer would have written down, newest entry first. No
program reads it.

## Induction over runs

A property of a pool is proved for one step and then of all runs, and this file does the second
half. `Along` says that every step meets a condition in the configuration it is taken in, `Always`
that every configuration on the way has a property. Where the step lemma is an implication the run
lemma gives the property under the condition; where it is an equivalence, so is what comes out of it
(`always_iff_along`). Conditions are asked of steps that cannot be taken as well, which is harmless
as long as such a step meets them; the lemmas ask for that.
-/

namespace Await

/-- What happens to a call on its way to the server and back; `φ` is how a call can get lost. -/
inductive Fault (φ : Type) where
  | ok
  | before (lost : φ)
  | after (lost : φ)

namespace Fault

variable {φ : Type}

theorem before_ne_ok (lost : φ) : before lost ≠ .ok := nofun
theorem after_ne_ok (lost : φ) : after lost ≠ .ok := nofun

/-- The call is served, whether or not its caller learns so. -/
def Lands : Fault φ → Prop
  | .before _ => False
  | _ => True

instance : ∀ f : Fault φ, Decidable f.Lands
  | .ok => .isTrue trivial
  | .before _ => .isFalse id
  | .after _ => .isTrue trivial

/-- Nothing happens to the call. -/
def isOk : Fault φ → Bool
  | .ok => true
  | _ => false

theorem eq_ok {f : Fault φ} (h : f.isOk = true) : f = .ok := by
  cases f with
  | ok => rfl
  | before e => cases h
  | after e => cases h

@[simp] theorem lands_ok : (Fault.ok : Fault φ).Lands := trivial
@[simp] theorem lands_after (e : φ) : (Fault.after e).Lands := trivial
@[simp] theorem not_lands_before (e : φ) : ¬ (Fault.before e).Lands := id

end Fault

/-- A server: what it answers to a call and the state it goes to, and what the caller of a lost
call hears instead. It is told the caller, so that what is stored can be traced back to who stored
it. -/
structure Server (Op : Type) (Res : Op → Type) (δ φ σ : Type) where
  answer : Nat → (op : Op) → σ → Except δ (Res op) × σ
  lost : φ → δ

namespace Server

variable {Op : Type} {Res : Op → Type} {δ φ σ : Type}

/-- What the caller hears. -/
def heard (S : Server Op Res δ φ σ) (tid : Nat) (op : Op) (w : σ) :
    Fault φ → Except δ (Res op)
  | .ok => (S.answer tid op w).1
  | .before e => .error (S.lost e)
  | .after e => .error (S.lost e)

/-- The state a call leaves. -/
def left (S : Server Op Res δ φ σ) (tid : Nat) (op : Op) (w : σ) : Fault φ → σ
  | .before _ => w
  | _ => (S.answer tid op w).2

variable {S : Server Op Res δ φ σ} {tid : Nat} {op : Op} {w : σ} {f : Fault φ}

@[simp] theorem heard_ok : S.heard tid op w .ok = (S.answer tid op w).1 := rfl
@[simp] theorem heard_before (e : φ) : S.heard tid op w (.before e) = .error (S.lost e) := rfl
@[simp] theorem heard_after (e : φ) : S.heard tid op w (.after e) = .error (S.lost e) := rfl
@[simp] theorem left_ok : S.left tid op w .ok = (S.answer tid op w).2 := rfl
@[simp] theorem left_before (e : φ) : S.left tid op w (.before e) = w := rfl
@[simp] theorem left_after (e : φ) : S.left tid op w (.after e) = (S.answer tid op w).2 := rfl

theorem left_of_lands (h : f.Lands) : S.left tid op w f = (S.answer tid op w).2 := by
  cases f with
  | ok => rfl
  | before e => exact absurd h (Fault.not_lands_before e)
  | after e => rfl

theorem left_of_not_lands (h : ¬ f.Lands) : S.left tid op w f = w := by
  cases f with
  | ok => exact absurd Fault.lands_ok h
  | before e => rfl
  | after e => exact absurd (Fault.lands_after e) h

/-- A call that does not land leaves the state as it is. -/
theorem left_cases (S : Server Op Res δ φ σ) (tid : Nat) (op : Op) (w : σ) (f : Fault φ) :
    S.left tid op w f = w ∨ (f.Lands ∧ S.left tid op w f = (S.answer tid op w).2) := by
  by_cases hl : f.Lands
  · exact Or.inr ⟨hl, left_of_lands hl⟩
  · exact Or.inl (left_of_not_lands hl)

/-- What holds before a call, and of the state it leaves if it is served, holds afterwards. -/
theorem left_preserves {P : σ → Prop} (h : P w) (hP : f.Lands → P (S.answer tid op w).2) :
    P (S.left tid op w f) := by
  by_cases hl : f.Lands
  · rw [left_of_lands hl]
    exact hP hl
  · rw [left_of_not_lands hl]
    exact h

/-- Only a call that nothing happened to is answered. -/
theorem heard_eq_ok {r : Res op} (h : S.heard tid op w f = .ok r) :
    f = .ok ∧ (S.answer tid op w).1 = .ok r := by
  cases f with
  | ok => exact ⟨rfl, h⟩
  | before e => cases h
  | after e => cases h

/-- What is heard of no lost call was answered by the server. -/
theorem heard_answered {M : Except δ (Res op) → Prop} (hlost : ∀ e, ¬ M (.error e))
    (h : M (S.heard tid op w f)) : f = .ok ∧ M (S.answer tid op w).1 := by
  cases f with
  | ok => exact ⟨rfl, h⟩
  | before e => exact absurd h (hlost _)
  | after e => exact absurd h (hlost _)

end Server

/-- One call of program `tid`: what became of it on the way, the state it met, and what the
program heard. -/
structure Event (Op : Type) (Res : Op → Type) (δ φ σ : Type) where
  tid : Nat
  op : Op
  fault : Fault φ
  before : σ
  heard : Except δ (Res op)

structure Config (Op : Type) (Res : Op → Type) (δ ε φ σ α : Type) where
  world : σ
  prog : Nat → Prog Op Res δ ε α
  hist : List (Event Op Res δ φ σ)

namespace Config

variable {Op : Type} {Res : Op → Type} {δ ε φ σ α : Type}

/-- Programs that have not started, over a state. -/
def init (w : σ) (start : Nat → Prog Op Res δ ε α) : Config Op Res δ ε φ σ α := ⟨w, start, []⟩

variable (S : Server Op Res δ φ σ)

/-- Program `i`, which has issued `op`, is served under fault `f` and goes on with `k`. -/
def next (c : Config Op Res δ ε φ σ α) (i : Nat) (f : Fault φ) (op : Op)
    (k : Except δ (Res op) → Prog Op Res δ ε α) : Config Op Res δ ε φ σ α where
  world := S.left i op c.world f
  prog := Function.update c.prog i (k (S.heard i op c.world f))
  hist := ⟨i, op, f, c.world, S.heard i op c.world f⟩ :: c.hist

def step (c : Config Op Res δ ε φ σ α) (l : Nat × Fault φ) : Option (Config Op Res δ ε φ σ α) :=
  match c.prog l.1 with
  | .await op k => some (c.next S l.1 l.2 op k)
  | _ => none

/-- Follow a schedule. -/
def run (c : Config Op Res δ ε φ σ α) : List (Nat × Fault φ) → Option (Config Op Res δ ε φ σ α)
  | [] => some c
  | l :: ls =>
    match c.step S l with
    | some d => d.run ls
    | none => none

/-- `C` holds of every step of the schedule, at the configuration it is taken in. -/
def Along (C : Config Op Res δ ε φ σ α → Nat × Fault φ → Prop) (c : Config Op Res δ ε φ σ α) :
    List (Nat × Fault φ) → Prop
  | [] => True
  | l :: ls => C c l ∧ ∀ d, c.step S l = some d → Along C d ls

/-- `P` holds in every configuration the schedule passes through, both ends included. -/
def Always (P : Config Op Res δ ε φ σ α → Prop) (c : Config Op Res δ ε φ σ α) :
    List (Nat × Fault φ) → Prop
  | [] => P c
  | l :: ls => P c ∧ ∀ d, c.step S l = some d → Always P d ls

/-- A condition that can be checked can be checked along a schedule. -/
instance decidableAlong (C : Config Op Res δ ε φ σ α → Nat × Fault φ → Prop)
    [∀ c l, Decidable (C c l)] :
    ∀ (c : Config Op Res δ ε φ σ α) (ls : List (Nat × Fault φ)), Decidable (c.Along S C ls)
  | _, [] => .isTrue trivial
  | c, l :: ls =>
    match h : c.step S l with
    | none =>
      decidable_of_iff (C c l) ⟨fun hC => ⟨hC, fun d hd => by rw [h] at hd; cases hd⟩, (·.1)⟩
    | some d =>
      have := decidableAlong C d ls
      decidable_of_iff (C c l ∧ d.Along S C ls)
        ⟨fun hC => ⟨hC.1, fun e he => by rw [h] at he; exact Option.some.inj he ▸ hC.2⟩,
          fun hC => ⟨hC.1, hC.2 d h⟩⟩

variable {S} {C : Config Op Res δ ε φ σ α → Nat × Fault φ → Prop}
  {P : Config Op Res δ ε φ σ α → Prop} {c d : Config Op Res δ ε φ σ α}

@[simp] theorem init_world (w : σ) (start : Nat → Prog Op Res δ ε α) :
    (init w start : Config Op Res δ ε φ σ α).world = w := rfl
@[simp] theorem init_prog (w : σ) (start : Nat → Prog Op Res δ ε α) :
    (init w start : Config Op Res δ ε φ σ α).prog = start := rfl
@[simp] theorem init_hist (w : σ) (start : Nat → Prog Op Res δ ε α) :
    (init w start : Config Op Res δ ε φ σ α).hist = [] := rfl

@[simp] theorem next_world (i : Nat) (f : Fault φ) (op : Op)
    (k : Except δ (Res op) → Prog Op Res δ ε α) :
    (c.next S i f op k).world = S.left i op c.world f := rfl

@[simp] theorem next_hist (i : Nat) (f : Fault φ) (op : Op)
    (k : Except δ (Res op) → Prog Op Res δ ε α) :
    (c.next S i f op k).hist = ⟨i, op, f, c.world, S.heard i op c.world f⟩ :: c.hist := rfl

@[simp] theorem next_prog_self (i : Nat) (f : Fault φ) (op : Op)
    (k : Except δ (Res op) → Prog Op Res δ ε α) :
    (c.next S i f op k).prog i = k (S.heard i op c.world f) :=
  Function.update_self ..

theorem next_prog_of_ne {i j : Nat} (h : j ≠ i) (f : Fault φ) (op : Op)
    (k : Except δ (Res op) → Prog Op Res δ ε α) :
    (c.next S i f op k).prog j = c.prog j :=
  Function.update_of_ne h ..

/-- Everything a step can be. -/
theorem step_cases {l : Nat × Fault φ} (h : c.step S l = some d) :
    ∃ op k, c.prog l.1 = .await op k ∧ d = c.next S l.1 l.2 op k := by
  unfold step at h
  cases hp : c.prog l.1 with
  | pure a => rw [hp] at h; cases h
  | throw e => rw [hp] at h; cases h
  | await op k =>
    rw [hp] at h
    exact ⟨op, k, rfl, (Option.some.inj h).symm⟩

/-- A finished program is never scheduled again. -/
theorem step_prog_of_finished {l : Nat × Fault φ} {i : Nat} (hi : (c.prog i).Finished)
    (h : c.step S l = some d) : d.prog i = c.prog i := by
  obtain ⟨op, k, hp, rfl⟩ := step_cases h
  refine next_prog_of_ne (fun heq => ?_) ..
  rw [heq, hp] at hi
  exact Prog.not_finished_await op k hi

theorem step_finished {l : Nat × Fault φ} {i : Nat} (hi : (c.prog i).Finished)
    (h : c.step S l = some d) : (d.prog i).Finished := by
  rw [step_prog_of_finished hi h]
  exact hi

theorem step_of_await {l : Nat × Fault φ} {op : Op}
    {k : Except δ (Res op) → Prog Op Res δ ε α} (h : c.prog l.1 = .await op k) :
    c.step S l = some (c.next S l.1 l.2 op k) := by
  simp only [step, h]

/-- A step that cannot be taken is one of a program that is over. -/
theorem finished_of_stuck {l : Nat × Fault φ} (h : c.step S l = none) : (c.prog l.1).Finished := by
  cases hp : c.prog l.1 with
  | pure a => rfl
  | throw e => rfl
  | await op k =>
    rw [step_of_await hp] at h
    cases h

/-- A run is a step and then a run. -/
theorem run_cons {l : Nat × Fault φ} {ls : List (Nat × Fault φ)}
    (h : c.run S (l :: ls) = some d) :
    ∃ e, c.step S l = some e ∧ e.run S ls = some d := by
  unfold run at h
  cases hs : c.step S l with
  | none => rw [hs] at h; cases h
  | some e => rw [hs] at h; exact ⟨e, rfl, h⟩

theorem run_append {ls ms : List (Nat × Fault φ)} (h : c.run S (ls ++ ms) = some d) :
    ∃ e, c.run S ls = some e ∧ e.run S ms = some d := by
  induction ls generalizing c with
  | nil => exact ⟨c, rfl, h⟩
  | cons l ls ih =>
    obtain ⟨e, hs, hr⟩ := run_cons h
    obtain ⟨e', hr', hd⟩ := ih hr
    exact ⟨e', by simp only [run, hs, hr'], hd⟩

/-! ## The invariant rule -/

/-- **What every step preserves, every run preserves.** The step may assume the condition `C`
that is known of the schedule. -/
theorem run_invariant
    (hstep : ∀ c l d, P c → C c l → c.step S l = some d → P d)
    {ls : List (Nat × Fault φ)} (hP : P c) (hC : c.Along S C ls)
    (h : c.run S ls = some d) : P d := by
  induction ls generalizing c with
  | nil => exact Option.some.inj h ▸ hP
  | cons l ls ih =>
    obtain ⟨e, hs, hr⟩ := run_cons h
    exact ih (hstep c l e hP hC.1 hs) (hC.2 e hs) hr

/-- …and so it holds everywhere on the way. -/
theorem always_of_invariant
    (hstep : ∀ c l d, P c → C c l → c.step S l = some d → P d)
    {ls : List (Nat × Fault φ)} (hP : P c) (hC : c.Along S C ls) :
    c.Always S P ls := by
  induction ls generalizing c with
  | nil => exact hP
  | cons l ls ih => exact ⟨hP, fun e hs => ih (hstep c l e hP hC.1 hs) (hC.2 e hs)⟩

theorem Always.mono {Q : Config Op Res δ ε φ σ α → Prop} (h : ∀ c, P c → Q c)
    {ls : List (Nat × Fault φ)} (hP : c.Always S P ls) : c.Always S Q ls := by
  induction ls generalizing c with
  | nil => exact h c hP
  | cons l ls ih => exact ⟨h c hP.1, fun e hs => ih (hP.2 e hs)⟩

/-- What follows from what holds everywhere is met by every step. -/
theorem Always.along (h : ∀ c l, P c → C c l) {ls : List (Nat × Fault φ)}
    (hP : c.Always S P ls) : c.Along S C ls := by
  induction ls generalizing c with
  | nil => trivial
  | cons l ls ih => exact ⟨h c l hP.1, fun e hs => ih (hP.2 e hs)⟩

theorem along_trivial (ls : List (Nat × Fault φ)) :
    c.Along S (fun _ _ => True) ls := by
  induction ls generalizing c with
  | nil => trivial
  | cons l ls ih => exact ⟨trivial, fun e _ => ih⟩

/-- A condition that follows from an invariant is met by every run. -/
theorem along_of_invariant (hstep : ∀ c l d, P c → c.step S l = some d → P d)
    (hC : ∀ c l, P c → C c l) {ls : List (Nat × Fault φ)} (hP : P c) : c.Along S C ls := by
  induction ls generalizing c with
  | nil => trivial
  | cons l ls ih => exact ⟨hC c l hP, fun d hs => ih (hstep c l d hP hs)⟩

theorem Along.mono {D : Config Op Res δ ε φ σ α → Nat × Fault φ → Prop}
    (h : ∀ c l, C c l → D c l) {ls : List (Nat × Fault φ)} (hC : c.Along S C ls) :
    c.Along S D ls := by
  induction ls generalizing c with
  | nil => trivial
  | cons l ls ih => exact ⟨h c l hC.1, fun e hs => ih (hC.2 e hs)⟩

theorem along_and {D : Config Op Res δ ε φ σ α → Nat × Fault φ → Prop}
    {ls : List (Nat × Fault φ)} (hC : c.Along S C ls) (hD : c.Along S D ls) :
    c.Along S (fun c l => C c l ∧ D c l) ls := by
  induction ls generalizing c with
  | nil => trivial
  | cons l ls ih => exact ⟨⟨hC.1, hD.1⟩, fun e hs => ih (hC.2 e hs) (hD.2 e hs)⟩

theorem along_append {ls ms : List (Nat × Fault φ)} :
    c.Along S C (ls ++ ms) ↔ c.Along S C ls ∧ ∀ e, c.run S ls = some e → e.Along S C ms := by
  induction ls generalizing c with
  | nil => exact ⟨fun h => ⟨trivial, fun e he => Option.some.inj he ▸ h⟩, fun h => h.2 c rfl⟩
  | cons l ls ih =>
    constructor
    · intro h
      refine ⟨⟨h.1, fun d hs => (ih.mp (h.2 d hs)).1⟩, fun e he => ?_⟩
      obtain ⟨d, hs, hr⟩ := run_cons he
      exact (ih.mp (h.2 d hs)).2 e hr
    · intro h
      refine ⟨h.1.1, fun d hs => ih.mpr ⟨h.1.2 d hs, fun e he => h.2 e ?_⟩⟩
      simp only [run, hs, he]

/-- The last step of a run, and what is known before it. -/
theorem run_last {l : Nat × Fault φ} {ls : List (Nat × Fault φ)}
    (hstep : ∀ c l d, P c → C c l → c.step S l = some d → P d) (hP : P c)
    (hC : c.Along S C (ls ++ [l])) (h : c.run S (ls ++ [l]) = some d) :
    ∃ e, P e ∧ C e l ∧ e.step S l = some d := by
  obtain ⟨e, hr, hl⟩ := run_append h
  obtain ⟨e', hs, he'⟩ := run_cons hl
  obtain ⟨hC, hCl⟩ := along_append.mp hC
  exact ⟨e, run_invariant hstep hP hC hr, (hCl e hr).1, hs.trans he'⟩

theorem run_prog_of_finished {i : Nat} {ls : List (Nat × Fault φ)} (hi : (c.prog i).Finished)
    (h : c.run S ls = some d) : d.prog i = c.prog i :=
  run_invariant (C := fun _ _ => True) (P := fun e => e.prog i = c.prog i)
    (fun _ _ _ he _ hs => (step_prog_of_finished (he ▸ hi) hs).trans he) rfl
    (along_trivial ls) h

theorem run_finished {i : Nat} {ls : List (Nat × Fault φ)} (hi : (c.prog i).Finished)
    (h : c.run S ls = some d) : (d.prog i).Finished := by
  rw [run_prog_of_finished hi h]
  exact hi

/-- The programs a pool can come to hold: whatever holds of the programs at the start and is
handed from a call to each of its continuations. -/
theorem run_programs {I : Nat → Prog Op Res δ ε α → Prop}
    (hI : ∀ i op k, I i (.await op k) → ∀ r, I i (k r))
    {ls : List (Nat × Fault φ)} (h0 : ∀ i, I i (c.prog i)) (h : c.run S ls = some d) :
    ∀ i, I i (d.prog i) := by
  refine run_invariant (C := fun _ _ => True) (P := fun c => ∀ i, I i (c.prog i)) ?_ h0
    (along_trivial ls) h
  intro c l d hc _ hs i
  obtain ⟨op, k, hp, rfl⟩ := step_cases hs
  by_cases hi : i = l.1
  · subst hi
    rw [next_prog_self]
    exact hI _ op k (hp ▸ hc l.1) _
  · rw [next_prog_of_ne hi]
    exact hc i

/-- The calls a program can still issue are among those it could issue at the start. -/
theorem run_uses {Q : Nat → Op → Prop} {ls : List (Nat × Fault φ)}
    (h0 : ∀ i, (c.prog i).Uses (Q i)) (h : c.run S ls = some d) : ∀ i, (d.prog i).Uses (Q i) :=
  run_programs (fun _ _ _ hi r => hi.2 r) h0 h

/-- What holds of the programs everywhere holds of them wherever they are. -/
theorem step_everywhere {Q : Nat → Prog Op Res δ ε α → Prop} {l : Nat × Fault φ}
    (h0 : ∀ i, (c.prog i).Everywhere (Q i)) (h : c.step S l = some d) :
    ∀ i, (d.prog i).Everywhere (Q i) :=
  have hrun : c.run S [l] = some d := by simp only [run, h]
  run_programs (fun _ _ _ hi r => hi.2 r) h0 hrun

/-- What holds everywhere on the way holds at its end. -/
theorem Always.run {ls : List (Nat × Fault φ)} (hP : c.Always S P ls)
    (h : c.run S ls = some d) : P d := by
  induction ls generalizing c with
  | nil => exact Option.some.inj h ▸ hP
  | cons l ls ih =>
    obtain ⟨e, hs, hr⟩ := run_cons h
    exact ih (hP.2 e hs) hr

/-- **Where a step keeps `P` exactly when it meets `C`**, a run keeps `P` everywhere exactly when
all its steps meet `C`. The steps are known to meet `H` besides. A schedule that names a finished
program has no step there. -/
theorem always_iff_along_of {I : Config Op Res δ ε φ σ α → Prop}
    {H : Config Op Res δ ε φ σ α → Nat × Fault φ → Prop}
    (hI : ∀ c l d, I c → H c l → c.step S l = some d → I d)
    (hstuck : ∀ c l, c.step S l = none → C c l)
    (hstep : ∀ c l d, I c → H c l → P c → c.step S l = some d → (P d ↔ C c l))
    {ls : List (Nat × Fault φ)} (hH : c.Along S H ls) (hi : I c) (hP : P c) :
    c.Always S P ls ↔ c.Along S C ls := by
  induction ls generalizing c with
  | nil => exact ⟨fun _ => trivial, fun _ => hP⟩
  | cons l ls ih =>
    cases hs : c.step S l with
    | none =>
      have hnone : ∀ d, ¬ c.step S l = some d := fun d hd => by rw [hs] at hd; cases hd
      exact ⟨fun _ => ⟨hstuck c l hs, fun d hd => absurd hd (hnone d)⟩,
        fun _ => ⟨hP, fun d hd => absurd hd (hnone d)⟩⟩
    | some e =>
      -- There is only one state the step can lead to.
      have honly : ∀ d, c.step S l = some d → d = e := fun d hd => by
        rw [hs] at hd; exact (Option.some.inj hd).symm
      have he := hI c l e hi hH.1 hs
      have hHe := hH.2 e hs
      constructor
      · intro h
        have hPe : P e := by
          cases ls with
          | nil => exact h.2 e hs
          | cons m ms => exact (h.2 e hs).1
        refine ⟨(hstep c l e hi hH.1 hP hs).mp hPe, fun d hd => ?_⟩
        rw [honly d hd]
        exact (ih hHe he hPe).mp (h.2 e hs)
      · intro h
        have hPe := (hstep c l e hi hH.1 hP hs).mpr h.1
        refine ⟨hP, fun d hd => ?_⟩
        rw [honly d hd]
        exact (ih hHe he hPe).mpr (h.2 e hs)

/-- …and where nothing more is known of the steps. -/
theorem always_iff_along {I : Config Op Res δ ε φ σ α → Prop}
    (hI : ∀ c l d, I c → c.step S l = some d → I d)
    (hstuck : ∀ c l, c.step S l = none → C c l)
    (hstep : ∀ c l d, I c → P c → c.step S l = some d → (P d ↔ C c l))
    {ls : List (Nat × Fault φ)} (hi : I c) (hP : P c) :
    c.Always S P ls ↔ c.Along S C ls :=
  always_iff_along_of (fun c l d hc _ => hI c l d hc) hstuck
    (fun c l d hc _ => hstep c l d hc) (along_trivial ls) hi hP

/-- A step lets one program issue its call; the others keep theirs. -/
theorem step_uses {Q : Nat → Op → Prop} {l : Nat × Fault φ} (h0 : ∀ i, (c.prog i).Uses (Q i))
    (h : c.step S l = some d) : ∀ i, (d.prog i).Uses (Q i) :=
  have hrun : c.run S [l] = some d := by simp only [run, h]
  run_uses h0 hrun

/-! ## What a program has heard -/

/-- Program `i` has had a call answered as `M` says. -/
def Heard (c : Config Op Res δ ε φ σ α) (i : Nat) (M : (op : Op) → Except δ (Res op) → Prop) :
    Prop :=
  ∃ ev ∈ c.hist, ev.tid = i ∧ M ev.op ev.heard

section Heard

variable {M : (op : Op) → Except δ (Res op) → Prop} {B : Op → Prop} {R : Except ε α → Prop}
  {i : Nat}

@[simp] theorem not_heard_init (w : σ) (start : Nat → Prog Op Res δ ε α) :
    ¬ (init w start : Config Op Res δ ε φ σ α).Heard i M := by
  intro h
  obtain ⟨ev, hev, -⟩ := h
  cases hev

/-- What has been heard stays heard, and a step adds at most its own answer. -/
theorem heard_next {j : Nat} {f : Fault φ} {op : Op} {k : Except δ (Res op) → Prog Op Res δ ε α} :
    (c.next S j f op k).Heard i M ↔ (j = i ∧ M op (S.heard j op c.world f)) ∨ c.Heard i M := by
  constructor
  · intro h
    obtain ⟨ev, hev, htid, hM⟩ := h
    rcases List.mem_cons.mp hev with rfl | hev
    · exact Or.inl ⟨htid, hM⟩
    · exact Or.inr ⟨ev, hev, htid, hM⟩
  · intro h
    rcases h with ⟨hj, hM⟩ | ⟨ev, hev, htid, hM⟩
    · exact ⟨_, List.mem_cons_self, hj, hM⟩
    · exact ⟨ev, List.mem_cons_of_mem _ hev, htid, hM⟩

theorem Heard.next (h : c.Heard i M) {j : Nat} {f : Fault φ} {op : Op}
    {k : Except δ (Res op) → Prog Op Res δ ε α} : (c.next S j f op k).Heard i M :=
  heard_next.mpr (Or.inr h)

/-- **A guarded program in a pool** is still guarded, or has heard what it was waiting for. -/
theorem step_guarded {l : Nat × Fault φ} (hg : (c.prog i).Guarded M B R ∨ c.Heard i M)
    (h : c.step S l = some d) : (d.prog i).Guarded M B R ∨ d.Heard i M := by
  obtain ⟨op, k, hp, rfl⟩ := step_cases h
  rcases hg with hg | hheard
  · by_cases hi : i = l.1
    · subst hi
      rw [hp] at hg
      by_cases hM : M op (S.heard l.1 op c.world l.2)
      · exact Or.inr (heard_next.mpr (Or.inl ⟨rfl, hM⟩))
      · refine Or.inl ?_
        rw [next_prog_self]
        exact hg.2 _ hM
    · refine Or.inl ?_
      rw [next_prog_of_ne hi]
      exact hg
  · exact Or.inr (heard_next.mpr (Or.inr hheard))

/-- Where no answer is one they wait for, all programs stay guarded. -/
theorem guarded_next {j : Nat} {f : Fault φ} {op : Op} {k : Except δ (Res op) → Prog Op Res δ ε α}
    (hg : ∀ i, (c.prog i).Guarded M B R) (hp : c.prog j = .await op k)
    (hM : ¬ M op (S.heard j op c.world f)) (i : Nat) :
    ((c.next S j f op k).prog i).Guarded M B R := by
  by_cases hi : i = j
  · subst hi
    rw [next_prog_self]
    exact (hp ▸ hg i : (Prog.await op k).Guarded M B R).2 _ hM
  · rw [next_prog_of_ne hi]
    exact hg i

theorem run_guarded {ls : List (Nat × Fault φ)} (hg : (c.prog i).Guarded M B R)
    (h : c.run S ls = some d) : (d.prog i).Guarded M B R ∨ d.Heard i M :=
  run_invariant (C := fun _ _ => True)
    (P := fun c => (c.prog i).Guarded M B R ∨ c.Heard i M)
    (fun _ _ _ hc _ hs => step_guarded hc hs) (Or.inl hg) (along_trivial ls) h

/-- The program has issued a call in `B`. -/
def Issued (c : Config Op Res δ ε φ σ α) (i : Nat) (B : Op → Prop) : Prop :=
  ∃ ev ∈ c.hist, ev.tid = i ∧ B ev.op

/-- Once a program has issued a call in `B`, it is left with calls in `P`. -/
def LeftWith (B P : Op → Prop) (i : Nat) (c : Config Op Res δ ε φ σ α) : Prop :=
  (c.prog i).Thereafter B P ∧ (c.Issued i B → (c.prog i).Uses P)

theorem leftWith_init {P : Op → Prop} {w : σ} {start : Nat → Prog Op Res δ ε α}
    (h : (start i).Thereafter B P) : (init w start : Config Op Res δ ε φ σ α).LeftWith B P i :=
  ⟨h, fun ⟨_, hev, _⟩ => absurd hev List.not_mem_nil⟩

theorem LeftWith.step {P : Op → Prop} {l : Nat × Fault φ} (h : c.LeftWith B P i)
    (hs : c.step S l = some d) : d.LeftWith B P i := by
  obtain ⟨op, k, hp, rfl⟩ := step_cases hs
  obtain ⟨hthereafter, hleft⟩ := h
  by_cases hi : i = l.1
  · subst hi
    rw [hp] at hthereafter hleft
    unfold LeftWith
    rw [next_prog_self]
    refine ⟨hthereafter.2 _, fun hissued => ?_⟩
    obtain ⟨ev, hev, htid, hop⟩ := hissued
    rcases List.mem_cons.mp hev with rfl | hev
    · exact hthereafter.1 hop _
    · exact (hleft ⟨ev, hev, htid, hop⟩).2 _
  · unfold LeftWith
    rw [next_prog_of_ne hi]
    refine ⟨hthereafter, fun hissued => ?_⟩
    obtain ⟨ev, hev, htid, hop⟩ := hissued
    rcases List.mem_cons.mp hev with rfl | hev
    · exact absurd htid.symm hi
    · exact hleft ⟨ev, hev, htid, hop⟩

end Heard

end Config

end Await
