import Provisioning.Lib.Pool

/-!
# The way a program has come

Where a program stands is decided by what it has heard so far. `Uses` and `Guarded` speak of all
ways through the tree at once; this file is about one of them. `p.Reaches way q` says that `p`,
having heard the answers in `way`, is left with `q`.

The reason for it is the last section. The history of a pool, cut down to one program, is a way
through that program from its start to where it stands (`Arrived.step`). So a fact such as "it
acknowledges only after it has read a table and published to everyone in it" is shown of the tree,
where the table is just an answer on the way, and then holds in every interleaving.
-/

namespace Await

/-- A call and what the program heard. -/
structure Answered (Op : Type) (Res : Op → Type) (δ : Type) where
  op : Op
  heard : Except δ (Res op)

namespace Prog

variable {Op : Type} {Res : Op → Type} {δ ε α β γ : Type}

/-- Having heard these answers, the program is left with that one. -/
inductive Reaches : Prog Op Res δ ε α → List (Answered Op Res δ) → Prog Op Res δ ε α → Prop where
  | refl (p : Prog Op Res δ ε α) : Reaches p [] p
  | await {op : Op} {k : Except δ (Res op) → Prog Op Res δ ε α} {r : Except δ (Res op)}
      {way : List (Answered Op Res δ)} {q : Prog Op Res δ ε α} (h : Reaches (k r) way q) :
      Reaches (.await op k) (⟨op, r⟩ :: way) q

variable {p q : Prog Op Res δ ε α} {way : List (Answered Op Res δ)} {op : Op} {P : Op → Prop}

/-- One more answer. -/
theorem Reaches.snoc {k : Except δ (Res op) → Prog Op Res δ ε α}
    (h : p.Reaches way (.await op k)) (r : Except δ (Res op)) :
    p.Reaches (way ++ [⟨op, r⟩]) (k r) := by
  generalize hq : Prog.await op k = q at h
  induction h with
  | refl =>
    subst hq
    exact .await (.refl _)
  | await _ ih => exact .await (ih hq)

@[simp] theorem reaches_pure {a : α} :
    (Prog.pure a : Prog Op Res δ ε α).Reaches way q ↔ way = [] ∧ q = .pure a := by
  constructor
  · intro h
    cases h
    exact ⟨rfl, rfl⟩
  · intro ⟨hway, hq⟩
    subst hway hq
    exact .refl _

@[simp] theorem reaches_throw {e : ε} :
    (Prog.throw e : Prog Op Res δ ε α).Reaches way q ↔ way = [] ∧ q = .throw e := by
  constructor
  · intro h
    cases h
    exact ⟨rfl, rfl⟩
  · intro ⟨hway, hq⟩
    subst hway hq
    exact .refl _

/-- The calls on the way, and those that are left, are calls of the program. -/
theorem Reaches.uses (hp : p.Uses P) (h : p.Reaches way q) :
    (∀ x ∈ way, P x.op) ∧ q.Uses P := by
  induction h with
  | refl => exact ⟨nofun, hp⟩
  | await _ ih =>
    obtain ⟨hway, hq⟩ := ih (hp.2 _)
    refine ⟨fun x hx => ?_, hq⟩
    rcases List.mem_cons.mp hx with rfl | hx
    · exact hp.1
    · exact hway x hx

/-- How it can end it could from the start. -/
theorem Reaches.ends {R : Except ε α → Prop} (h : p.Reaches way q) (hp : p.Ends R) : q.Ends R := by
  induction h with
  | refl => exact hp
  | await _ ih => exact ih (hp _)

theorem Reaches.uses_await {k : Except δ (Res op) → Prog Op Res δ ε α} (hp : p.Uses P)
    (h : p.Reaches way (.await op k)) : P op :=
  (h.uses hp).2.1

/-! ## Programs in two parts -/

/-- A call of two programs in a row is one of the first, or the first has returned. -/
theorem reaches_bind_await {f : α → Prog Op Res δ ε β} {k : Except δ (Res op) → Prog Op Res δ ε β}
    (h : (p.bind f).Reaches way (.await op k)) :
    (∃ k', p.Reaches way (.await op k')) ∨
      ∃ first a rest, way = first ++ rest ∧ p.Reaches first (.pure a) ∧
        (f a).Reaches rest (.await op k) := by
  induction p generalizing way with
  | pure a => exact Or.inr ⟨[], a, way, rfl, .refl _, h⟩
  | throw e =>
    obtain ⟨-, hq⟩ := reaches_throw.mp h
    cases hq
  | await op' k' ih =>
    cases h with
    | refl => exact Or.inl ⟨k', .refl _⟩
    | @await _ _ r way _ h =>
      rcases ih r h with ⟨k'', hp⟩ | ⟨first, a, rest, rfl, hp, hf⟩
      · exact Or.inl ⟨k'', .await hp⟩
      · exact Or.inr ⟨⟨op', r⟩ :: first, a, rest, rfl, .await hp, hf⟩

/-- Two programs in a row have returned when both have. -/
theorem reaches_bind_pure {f : α → Prog Op Res δ ε β} {b : β}
    (h : (p.bind f).Reaches way (.pure b)) :
    ∃ first a rest, way = first ++ rest ∧ p.Reaches first (.pure a) ∧
      (f a).Reaches rest (.pure b) := by
  induction p generalizing way with
  | pure a => exact ⟨[], a, way, rfl, .refl _, h⟩
  | throw e =>
    obtain ⟨-, hq⟩ := reaches_throw.mp h
    cases hq
  | await op' k' ih =>
    cases h with
    | @await _ _ r way _ h =>
      obtain ⟨first, a, rest, rfl, hp, hf⟩ := ih r h
      exact ⟨⟨op', r⟩ :: first, a, rest, rfl, .await hp, hf⟩

/-- Two programs in a row raise what the first raises, or what the second does. -/
theorem reaches_bind_throw {f : α → Prog Op Res δ ε β} {e : ε}
    (h : (p.bind f).Reaches way (.throw e)) :
    p.Reaches way (.throw e) ∨
      ∃ first a rest, way = first ++ rest ∧ p.Reaches first (.pure a) ∧
        (f a).Reaches rest (.throw e) := by
  induction p generalizing way with
  | pure a => exact Or.inr ⟨[], a, way, rfl, .refl _, h⟩
  | throw e' =>
    obtain ⟨rfl, hq⟩ := reaches_throw.mp h
    cases hq
    exact Or.inl (.refl _)
  | await op' k' ih =>
    cases h with
    | @await _ _ r way _ h =>
      rcases ih r h with hp | ⟨first, a, rest, rfl, hp, hf⟩
      · exact Or.inl (.await hp)
      · exact Or.inr ⟨⟨op', r⟩ :: first, a, rest, rfl, .await hp, hf⟩

/-- A call of a program with a handler is one of the program, or it has raised. -/
theorem reaches_tryCatch_await {f : ε → Prog Op Res δ ε α}
    {k : Except δ (Res op) → Prog Op Res δ ε α}
    (h : (p.tryCatch f).Reaches way (.await op k)) :
    (∃ k', p.Reaches way (.await op k')) ∨
      ∃ first e rest, way = first ++ rest ∧ p.Reaches first (.throw e) ∧
        (f e).Reaches rest (.await op k) := by
  induction p generalizing way with
  | pure a =>
    obtain ⟨-, hq⟩ := reaches_pure.mp h
    cases hq
  | throw e => exact Or.inr ⟨[], e, way, rfl, .refl _, h⟩
  | await op' k' ih =>
    cases h with
    | refl => exact Or.inl ⟨k', .refl _⟩
    | @await _ _ r way _ h =>
      rcases ih r h with ⟨k'', hp⟩ | ⟨first, e, rest, rfl, hp, hf⟩
      · exact Or.inl ⟨k'', .await hp⟩
      · exact Or.inr ⟨⟨op', r⟩ :: first, e, rest, rfl, .await hp, hf⟩

/-- A program with a handler returns what it returns itself, or what the handler does. -/
theorem reaches_tryCatch_pure {f : ε → Prog Op Res δ ε α} {a : α}
    (h : (p.tryCatch f).Reaches way (.pure a)) :
    p.Reaches way (.pure a) ∨
      ∃ first e rest, way = first ++ rest ∧ p.Reaches first (.throw e) ∧
        (f e).Reaches rest (.pure a) := by
  induction p generalizing way with
  | pure a' => exact Or.inl h
  | throw e => exact Or.inr ⟨[], e, way, rfl, .refl _, h⟩
  | await op' k' ih =>
    cases h with
    | @await _ _ r way _ h =>
      rcases ih r h with hp | ⟨first, e, rest, rfl, hp, hf⟩
      · exact Or.inl (.await hp)
      · exact Or.inr ⟨⟨op', r⟩ :: first, e, rest, rfl, .await hp, hf⟩

/-- A call that has returned was answered. -/
theorem reaches_call_pure {raise : δ → ε} {a : Res op}
    (h : (call raise op : Prog Op Res δ ε (Res op)).Reaches way (.pure a)) :
    way = [⟨op, .ok a⟩] := by
  cases h with
  | @await _ _ r way _ h =>
    cases r with
    | ok a' =>
      obtain ⟨rfl, hq⟩ := reaches_pure.mp h
      cases hq
      rfl
    | error e =>
      obtain ⟨-, hq⟩ := reaches_throw.mp h
      cases hq

/-- A loop that has returned has gone through each of its rounds. -/
theorem reaches_forEach_pure {f : γ → Prog Op Res δ ε Unit} {xs : List γ}
    (h : (Prog.forEach xs f).Reaches way (.pure ())) :
    ∀ x ∈ xs, ∃ way', way' ⊆ way ∧ (f x).Reaches way' (.pure ()) := by
  induction xs generalizing way with
  | nil => exact nofun
  | cons x xs ih =>
    obtain ⟨first, _, rest, rfl, hx, hxs⟩ := reaches_bind_pure h
    intro y hy
    rcases List.mem_cons.mp hy with rfl | hy
    · exact ⟨first, List.subset_append_left first rest, hx⟩
    · obtain ⟨way', hsub, hway⟩ := ih hxs y hy
      exact ⟨way', fun z hz => List.mem_append_right first (hsub hz), hway⟩

/-! ## Programs behind a gate -/

/-- Whatever the program does, it does with `P` true of the way it has come; except that it may
make calls in `A` and raise what is in `E`. -/
structure Gated (P : List (Answered Op Res δ) → Prop) (A : Op → Prop) (E : ε → Prop)
    (p : Prog Op Res δ ε α) : Prop where
  calls : ∀ way op k, p.Reaches way (.await op k) → P way ∨ A op
  returns : ∀ way a, p.Reaches way (.pure a) → P way
  raises : ∀ way e, p.Reaches way (.throw e) → P way ∨ E e

section Gated

variable {Q : List (Answered Op Res δ) → Prop} {A : Op → Prop} {E : ε → Prop}

/-- The gate is open. -/
theorem gated_of_open (h : ∀ way, Q way) : p.Gated Q A E :=
  ⟨fun way _ _ _ => Or.inl (h way), fun way _ _ => h way, fun way _ _ => Or.inl (h way)⟩

/-- The gate is shut. -/
theorem gated_throw {e : ε} (h : E e) : (Prog.throw e : Prog Op Res δ ε α).Gated Q A E where
  calls := fun way op k hreach => by cases (reaches_throw.mp hreach).2
  returns := fun way a hreach => by cases (reaches_throw.mp hreach).2
  raises := fun way e' hreach => by
    cases (reaches_throw.mp hreach).2
    exact Or.inr h

/-- **Behind a gate anything may follow.** -/
theorem Gated.bind {f : α → Prog Op Res δ ε β} (hQ : ∀ way way', Q way → Q (way ++ way'))
    (hp : p.Gated Q A E) : (p.bind f).Gated Q A E where
  calls := by
    intro way op k h
    rcases reaches_bind_await h with ⟨k', hfirst⟩ | ⟨first, a, rest, rfl, hfirst, -⟩
    · exact hp.calls way op k' hfirst
    · exact Or.inl (hQ first rest (hp.returns first a hfirst))
  returns := by
    intro way b h
    obtain ⟨first, a, rest, rfl, hfirst, -⟩ := reaches_bind_pure h
    exact hQ first rest (hp.returns first a hfirst)
  raises := by
    intro way e h
    rcases reaches_bind_throw h with hfirst | ⟨first, a, rest, rfl, hfirst, -⟩
    · exact hp.raises way e hfirst
    · exact Or.inl (hQ first rest (hp.returns first a hfirst))

end Gated

end Prog

namespace Config

variable {Op : Type} {Res : Op → Type} {δ ε φ σ α : Type} {S : Server Op Res δ φ σ}
  {c d : Config Op Res δ ε φ σ α} {i : Nat}

/-- What program `i` has called and heard, oldest first. -/
def way (c : Config Op Res δ ε φ σ α) (i : Nat) : List (Answered Op Res δ) :=
  (c.hist.filter (·.tid == i)).reverse.map fun ev => ⟨ev.op, ev.heard⟩

theorem mem_way {x : Answered Op Res δ} :
    x ∈ c.way i ↔ ∃ ev ∈ c.hist, ev.tid = i ∧ x = ⟨ev.op, ev.heard⟩ := by
  unfold way
  constructor
  · intro h
    obtain ⟨ev, hev, rfl⟩ := List.mem_map.mp h
    obtain ⟨hev, htid⟩ := List.mem_filter.mp (List.mem_reverse.mp hev)
    exact ⟨ev, hev, eq_of_beq htid, rfl⟩
  · intro ⟨ev, hev, htid, hx⟩
    rw [hx]
    refine List.mem_map_of_mem (List.mem_reverse.mpr (List.mem_filter.mpr ⟨hev, ?_⟩))
    rw [htid]
    exact beq_self_eq_true i

theorem heard_of_mem_way {M : (op : Op) → Except δ (Res op) → Prop} {x : Answered Op Res δ}
    (hx : x ∈ c.way i) (hM : M x.op x.heard) : c.Heard i M := by
  obtain ⟨ev, hev, htid, rfl⟩ := mem_way.mp hx
  exact ⟨ev, hev, htid, hM⟩

theorem way_next_self {f : Fault φ} {op : Op} {k : Except δ (Res op) → Prog Op Res δ ε α} :
    (c.next S i f op k).way i = c.way i ++ [⟨op, S.heard i op c.world f⟩] := by
  simp [way]

theorem way_next_of_ne {j : Nat} (h : j ≠ i) {f : Fault φ} {op : Op}
    {k : Except δ (Res op) → Prog Op Res δ ε α} : (c.next S i f op k).way j = c.way j := by
  simp [way, Ne.symm h]

/-- All programs of the pool have come to where they stand from `start`. -/
def Arrived (start : Nat → Prog Op Res δ ε α) (c : Config Op Res δ ε φ σ α) : Prop :=
  ∀ i, (start i).Reaches (c.way i) (c.prog i)

theorem arrived_init (w : σ) (start : Nat → Prog Op Res δ ε α) :
    Arrived start (init w start : Config Op Res δ ε φ σ α) :=
  fun i => Prog.Reaches.refl (start i)

/-- **The history of a pool is a way through each of its programs**, after every step. -/
theorem Arrived.step {start : Nat → Prog Op Res δ ε α} {l : Nat × Fault φ} (h : Arrived start c)
    (hs : c.step S l = some d) : Arrived start d := by
  obtain ⟨op, k, hp, rfl⟩ := step_cases hs
  intro i
  by_cases hi : i = l.1
  · subst hi
    rw [way_next_self, next_prog_self]
    exact (hp ▸ h l.1 : (start l.1).Reaches (c.way l.1) (.await op k)).snoc _
  · rw [way_next_of_ne hi, next_prog_of_ne hi]
    exact h i

/-! ## What was heard was answered -/

/-- Everything in the history was heard from this server, in the state that is noted with it. -/
def Genuine (S : Server Op Res δ φ σ) (c : Config Op Res δ ε φ σ α) : Prop :=
  ∀ ev ∈ c.hist, ev.heard = S.heard ev.tid ev.op ev.before ev.fault

theorem Genuine.step {l : Nat × Fault φ} (h : c.Genuine S) (hs : c.step S l = some d) :
    d.Genuine S := by
  obtain ⟨op, k, -, rfl⟩ := step_cases hs
  intro ev hev
  rcases List.mem_cons.mp hev with rfl | hev
  · rfl
  · exact h ev hev

end Config

end Await
