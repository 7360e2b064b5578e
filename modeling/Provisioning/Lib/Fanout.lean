import Mathlib.Data.List.Destutter
import Mathlib.Logic.Relation

/-!
# Fanning a log out, in order and at least once

Events come in one after the other and are handed out from the front: the oldest one that is not
acknowledged, again and again until it is. Who works on them holds what it was handed in that
order, works on the first, sends it to everyone who wants it and acknowledges it, and may lose what
it holds at any time. So one receiver may have got an event several times when another has not got
it yet.

What keeps the receivers in order is that nobody works on an event while an older one is held, and
that an event is handed out only after the one before it was acknowledged, which was after it was
sent to all. `Inv` says how far they can be apart: by one event.

## Why the held events are in the invariant

An event that was acknowledged may still be held, by a worker that has lost the answer to its
acknowledgement or was handed the event twice, and it will be sent again. After a later event had
been sent to anyone this would be out of order. `Inv.held` excludes it: whoever holds the event
before the next one is proof that nobody has got the next one, and by `Inv.order` it is worked on
first.

## Repetitions

What a receiver got is compared with what it wants up to repetitions in a row (`destutter`). A plain
prefix would be too much, because an event is sent again after a crash; a sublist would be too
little, because it would allow an older event to come back after a newer one.
-/

namespace List

variable {α : Type} [DecidableEq α]

theorem destutter'_concat (l : List α) (a b : α) :
    (l ++ [a]).destutter' (· ≠ ·) b =
      if (l.destutter' (· ≠ ·) b).getLast? = some a then l.destutter' (· ≠ ·) b
      else l.destutter' (· ≠ ·) b ++ [a] := by
  induction l generalizing b with
  | nil => by_cases h : b = a <;> simp [h]
  | cons c l ih =>
    by_cases h : b = c
    · subst h
      rw [cons_append, destutter'_cons_neg (h := by simp), destutter'_cons_neg (h := by simp)]
      exact ih b
    · rw [cons_append, destutter'_cons_pos (h := h), destutter'_cons_pos (h := h), ih c]
      obtain ⟨x, xs, hxs⟩ := exists_cons_of_ne_nil (destutter'_ne_nil l (R := (· ≠ ·)) (a := c))
      rw [hxs, getLast?_cons_cons]
      split
      · rfl
      · rfl

/-- One more element: a repetition of the last one collapses. -/
theorem destutter_concat (l : List α) (a : α) :
    (l ++ [a]).destutter (· ≠ ·) =
      if (l.destutter (· ≠ ·)).getLast? = some a then l.destutter (· ≠ ·)
      else l.destutter (· ≠ ·) ++ [a] := by
  cases l with
  | nil => simp
  | cons b l =>
    rw [cons_append, destutter_cons', destutter_cons']
    exact destutter'_concat l a b

theorem mem_destutter_iff {l : List α} {a : α} : a ∈ l.destutter (· ≠ ·) ↔ a ∈ l := by
  refine ⟨fun h => (destutter_sublist (· ≠ ·) l).subset h, fun h => ?_⟩
  induction l using reverseRecOn with
  | nil => cases h
  | append_singleton l b ih =>
    rw [destutter_concat]
    rcases mem_append.mp h with h | h
    · split
      · exact ih h
      · exact mem_append_left _ (ih h)
    · obtain rfl := mem_singleton.mp h
      split
      · next hlast => exact mem_of_getLast? hlast
      · exact mem_append_right _ (mem_singleton_self a)

end List

namespace Fanout

structure State (ι ε : Type) where
  incoming : List ε
  /-- So many of them are acknowledged, from the front. -/
  acked : Nat
  /-- Where in `incoming` the events are that have been handed out and not been done with. -/
  held : List Nat
  sent : ι → List ε

variable {ι ε : Type} (wants : ι → ε → Bool)

inductive Step [DecidableEq ι] : State ι ε → State ι ε → Prop where
  | post (s : State ι ε) (e : ε) (h : e ∉ s.incoming) :
      Step s { s with incoming := s.incoming ++ [e] }
  | handOut (s : State ι ε) (h : s.acked < s.incoming.length) :
      Step s { s with held := s.held ++ [s.acked] }
  | send (s : State ι ε) (j : Nat) (rest : List Nat) (e : ε) (i : ι) (hheld : s.held = j :: rest)
      (he : s.incoming[j]? = some e) (hwants : wants i e = true) :
      Step s { s with sent := Function.update s.sent i (s.sent i ++ [e]) }
  | ack (s : State ι ε) (j : Nat) (rest : List Nat) (hheld : s.held = j :: rest)
      (hsent : ∀ e, s.incoming[j]? = some e → ∀ i, wants i e = true → e ∈ s.sent i) :
      Step s { s with acked := max s.acked (j + 1) }
  /-- The first ones are done with, or all are lost. -/
  | letGo (s : State ι ε) (rest : List Nat) (h : rest <:+ s.held) :
      Step s { s with held := rest }

variable [DecidableEq ε]

/-- What was sent to `i`, but for immediate repetitions, is what it wants of the first `n`. -/
def SentUpTo (s : State ι ε) (i : ι) (n : Nat) : Prop :=
  (s.sent i).destutter (· ≠ ·) = (s.incoming.take n).filter (wants i)

/-- How far the receivers are apart: all have got what was acknowledged, some the next event. While
an event is held that was acknowledged, nobody has got the next one. -/
structure Inv (s : State ι ε) : Prop where
  nodup : s.incoming.Nodup
  acked : s.acked ≤ s.incoming.length
  sent : ∀ i, SentUpTo wants s i s.acked ∨
    s.acked < s.incoming.length ∧ SentUpTo wants s i (s.acked + 1)
  held : ∀ j ∈ s.held, j = s.acked ∧ s.acked < s.incoming.length ∨
    j + 1 = s.acked ∧ ∀ i, SentUpTo wants s i s.acked
  order : s.held.Pairwise (· ≤ ·)

variable {wants} {s t : State ι ε} {i : ι} {j n : Nat} {e : ε} {rest : List Nat}

omit [DecidableEq ε] in
theorem filter_take_succ (he : s.incoming[j]? = some e) :
    (s.incoming.take (j + 1)).filter (wants i) =
      (s.incoming.take j).filter (wants i) ++ if wants i e = true then [e] else [] := by
  rw [List.take_add_one, he, Option.toList_some, List.filter_append]
  by_cases h : wants i e = true <;> simp [h]

omit [DecidableEq ε] in
/-- An event is not among those before it. -/
theorem not_mem_take (hnodup : s.incoming.Nodup) (he : s.incoming[j]? = some e) :
    e ∉ s.incoming.take j := by
  intro hmem
  obtain ⟨k, hk, hke⟩ := List.mem_iff_getElem.mp hmem
  rw [List.length_take] at hk
  rw [List.getElem_take] at hke
  obtain ⟨hj, hje⟩ := List.getElem?_eq_some_iff.mp he
  have hkj := hnodup.getElem_inj_iff.mp (hke.trans hje.symm)
  omega

/-- Sending the next event. -/
theorem SentUpTo.concat (h : SentUpTo wants s i j) (hnodup : s.incoming.Nodup)
    (he : s.incoming[j]? = some e) (hwants : wants i e = true) :
    (s.sent i ++ [e]).destutter (· ≠ ·) = (s.incoming.take (j + 1)).filter (wants i) := by
  rw [List.destutter_concat, h, filter_take_succ he, if_pos hwants, if_neg]
  intro hlast
  have hmem := List.mem_of_getLast? hlast
  exact not_mem_take hnodup he (List.mem_filter.mp hmem).1

/-- Sending it again. -/
theorem SentUpTo.concat_again (h : SentUpTo wants s i (j + 1)) (he : s.incoming[j]? = some e)
    (hwants : wants i e = true) :
    (s.sent i ++ [e]).destutter (· ≠ ·) = (s.incoming.take (j + 1)).filter (wants i) := by
  have hfilter : (s.incoming.take (j + 1)).filter (wants i) =
      (s.incoming.take j).filter (wants i) ++ [e] := by
    rw [filter_take_succ he, if_pos hwants]
  rw [List.destutter_concat, h, hfilter, if_pos]
  exact List.getLast?_concat

/-- While an event is held that is older than `j`, `j` is not at work. -/
theorem Inv.head_le (h : Inv wants s) (hheld : s.held = j :: rest) : ∀ k ∈ s.held, j ≤ k := by
  have horder := h.order
  rw [hheld] at horder ⊢
  intro k hk
  rcases List.mem_cons.mp hk with rfl | hk
  · exact Nat.le_refl k
  · exact (List.pairwise_cons.mp horder).1 k hk

/-- What comes in goes to the back, out of everyone's sight. -/
theorem Inv.post (h : Inv wants s) (he : e ∉ s.incoming) :
    Inv wants { s with incoming := s.incoming ++ [e] } := by
  have hsame : ∀ i n, n ≤ s.incoming.length → SentUpTo wants s i n →
      SentUpTo wants { s with incoming := s.incoming ++ [e] } i n := by
    intro i n hn hsent
    unfold SentUpTo
    rw [List.take_append_of_le_length hn]
    exact hsent
  have hlength : (s.incoming ++ [e]).length = s.incoming.length + 1 := by simp
  refine ⟨?_, ?_, fun i => ?_, fun j hj => ?_, h.order⟩
  · refine List.nodup_append.mpr ⟨h.nodup, List.nodup_singleton e, fun a ha b hb heq => ?_⟩
    exact he (List.mem_singleton.mp hb ▸ heq ▸ ha)
  · rw [hlength]
    exact Nat.le_succ_of_le h.acked
  · rcases h.sent i with hsent | ⟨hlt, hsent⟩
    · exact Or.inl (hsame i _ h.acked hsent)
    · exact Or.inr ⟨hlength ▸ Nat.lt_succ_of_lt hlt, hsame i _ hlt hsent⟩
  · rcases h.held j hj with ⟨heq, hlt⟩ | ⟨heq, hsent⟩
    · exact Or.inl ⟨heq, hlength ▸ Nat.lt_succ_of_lt hlt⟩
    · exact Or.inr ⟨heq, fun i => hsame i _ h.acked (hsent i)⟩

/-- What is handed out is the next one, so nobody holds anything newer. -/
theorem Inv.handOut (h : Inv wants s) (hlt : s.acked < s.incoming.length) :
    Inv wants { s with held := s.held ++ [s.acked] } := by
  refine ⟨h.nodup, h.acked, h.sent, fun j hj => ?_, ?_⟩
  · rcases List.mem_append.mp hj with hj | hj
    · exact h.held j hj
    · exact Or.inl ⟨List.mem_singleton.mp hj, hlt⟩
  · refine List.pairwise_append.mpr ⟨h.order, List.pairwise_singleton .., fun j hj k hk => ?_⟩
    rw [List.mem_singleton.mp hk]
    rcases h.held j hj with ⟨heq, -⟩ | ⟨heq, -⟩ <;> omega

/-- Sending the event at work, for the first time or again. -/
theorem Inv.send [DecidableEq ι] (h : Inv wants s) (hheld : s.held = j :: rest)
    (he : s.incoming[j]? = some e) (hwants : wants i e = true) :
    Inv wants { s with sent := Function.update s.sent i (s.sent i ++ [e]) } := by
  have hother : ∀ k n, k ≠ i → SentUpTo wants s k n →
      SentUpTo wants { s with sent := Function.update s.sent i (s.sent i ++ [e]) } k n := by
    intro k n hk hsent
    show (Function.update s.sent i (s.sent i ++ [e]) k).destutter (· ≠ ·) = _
    rw [Function.update_of_ne hk]
    exact hsent
  have hself : ∀ n, (s.sent i ++ [e]).destutter (· ≠ ·) =
      (s.incoming.take n).filter (wants i) →
      SentUpTo wants { s with sent := Function.update s.sent i (s.sent i ++ [e]) } i n := by
    intro n hsent
    show (Function.update s.sent i (s.sent i ++ [e]) i).destutter (· ≠ ·) = _
    rw [Function.update_self]
    exact hsent
  rcases h.held j (hheld ▸ List.mem_cons_self) with ⟨rfl, hlt⟩ | ⟨heq, hall⟩
  · -- It is the oldest one that is not acknowledged, so no older one is held.
    refine ⟨h.nodup, h.acked, fun k => ?_, fun k hk => Or.inl ?_, h.order⟩
    · by_cases hk : k = i
      · subst hk
        refine Or.inr ⟨hlt, hself _ ?_⟩
        rcases h.sent k with hsent | ⟨-, hsent⟩
        · exact hsent.concat h.nodup he hwants
        · exact hsent.concat_again he hwants
      · exact (h.sent k).imp (hother k _ hk) fun hsent => ⟨hsent.1, hother k _ hk hsent.2⟩
    · have hle := h.head_le hheld k hk
      rcases h.held k hk with hheld | ⟨heq, -⟩
      · exact hheld
      · omega
  · -- It was acknowledged before, and nobody has got the next one yet.
    have hagain : ∀ k, SentUpTo wants
        { s with sent := Function.update s.sent i (s.sent i ++ [e]) } k s.acked := by
      intro k
      by_cases hk : k = i
      · subst hk
        refine hself _ ?_
        rw [← heq]
        exact SentUpTo.concat_again (heq ▸ hall k) he hwants
      · exact hother k _ hk (hall k)
    exact ⟨h.nodup, h.acked, fun k => Or.inl (hagain k),
      fun k hk => (h.held k hk).imp_right fun hold => ⟨hold.1, hagain⟩, h.order⟩

/-- Acknowledging the event at work, which everyone has got. -/
theorem Inv.ack (h : Inv wants s) (hheld : s.held = j :: rest)
    (hsent : ∀ e, s.incoming[j]? = some e → ∀ i, wants i e = true → e ∈ s.sent i) :
    Inv wants { s with acked := max s.acked (j + 1) } := by
  rcases h.held j (hheld ▸ List.mem_cons_self) with ⟨rfl, hlt⟩ | ⟨heq, hall⟩
  · have hmax : max s.acked (s.acked + 1) = s.acked + 1 := Nat.max_eq_right (Nat.le_succ _)
    obtain ⟨e, he⟩ : ∃ e, s.incoming[s.acked]? = some e := ⟨_, List.getElem?_eq_getElem hlt⟩
    have hnext : ∀ i, SentUpTo wants s i (s.acked + 1) := by
      intro i
      rcases h.sent i with hsame | ⟨-, hnext⟩
      · by_cases hwants : wants i e = true
        · have hmem := List.mem_destutter_iff.mpr (hsent e he i hwants)
          rw [hsame] at hmem
          exact absurd (List.mem_filter.mp hmem).1 (not_mem_take h.nodup he)
        · unfold SentUpTo
          rw [filter_take_succ he, if_neg hwants, List.append_nil]
          exact hsame
      · exact hnext
    rw [hmax]
    refine ⟨h.nodup, hlt, fun i => Or.inl (hnext i), fun k hk => Or.inr ⟨?_, hnext⟩, h.order⟩
    have hle := h.head_le hheld k hk
    rcases h.held k hk with ⟨heq, -⟩ | ⟨heq, -⟩ <;> show k + 1 = s.acked + 1 <;> omega
  · have hmax : max s.acked (j + 1) = s.acked := by omega
    rw [hmax]
    exact h

/-- Losing what is held, from the front, says nothing new. -/
theorem Inv.letGo (h : Inv wants s) (hrest : rest <:+ s.held) :
    Inv wants { s with held := rest } :=
  ⟨h.nodup, h.acked, h.sent, fun j hj => h.held j (hrest.subset hj),
    h.order.sublist hrest.sublist⟩

/-- **Every step keeps it.** The cases are those of `Step`, one lemma for each. -/
theorem Inv.step [DecidableEq ι] (h : Inv wants s) (hs : Step wants s t) : Inv wants t := by
  cases hs with
  | post e he => exact h.post he
  | handOut hlt => exact h.handOut hlt
  | send j rest e i hheld he hwants => exact h.send hheld he hwants
  | ack j rest hheld hsent => exact h.ack hheld hsent
  | letGo rest hrest => exact h.letGo hrest

/-- Nothing has been handed out yet. -/
theorem inv_start {incoming : List ε} (h : incoming.Nodup) :
    Inv wants { incoming := incoming, acked := 0, held := [], sent := fun _ => [] } :=
  ⟨h, Nat.zero_le _, fun _ => Or.inl rfl, nofun, .nil⟩

/-- What is held may be let go in any order. -/
theorem Inv.drop (h : Inv wants s) (hrest : rest.Sublist s.held) :
    Inv wants { s with held := rest } :=
  ⟨h.nodup, h.acked, h.sent, fun j hj => h.held j (hrest.subset hj), h.order.sublist hrest⟩

/-- Acknowledging an event that everyone has got, whoever holds what. -/
theorem Inv.ack_late (h : Inv wants s) (he : s.incoming[j]? = some e) (hj : j ≤ s.acked)
    (hsent : ∀ i, wants i e = true → e ∈ s.sent i) (hwants : wants i e = true) :
    Inv wants { s with acked := max s.acked (j + 1) } := by
  rcases Nat.eq_or_lt_of_le hj with rfl | hlt
  · -- Nobody holds an older one: somebody has got this one.
    have hnone : ∀ k ∈ s.held, k + 1 ≠ s.acked := by
      intro k hk heq
      rcases h.held k hk with ⟨hk', -⟩ | ⟨-, hall⟩
      · omega
      · have hmem := List.mem_destutter_iff.mpr (hsent i hwants)
        rw [hall i] at hmem
        exact not_mem_take h.nodup he (List.mem_filter.mp hmem).1
    have hold : Inv wants { s with held := [s.acked] } := by
      obtain ⟨hlt, -⟩ := List.getElem?_eq_some_iff.mp he
      refine ⟨h.nodup, h.acked, h.sent, fun k hk => ?_, List.pairwise_singleton ..⟩
      exact Or.inl ⟨List.mem_singleton.mp hk, hlt⟩
    have hack := hold.ack rfl fun e' he' i hi => by
      cases he.symm.trans he'
      exact hsent i hi
    refine ⟨hack.nodup, hack.acked, hack.sent, fun k hk => ?_, h.order⟩
    have hk' : k = s.acked := by
      rcases h.held k hk with ⟨heq, -⟩ | ⟨heq, -⟩
      · exact heq
      · exact absurd heq (hnone k hk)
    exact hack.held k (List.mem_singleton.mpr hk')
  · rw [Nat.max_eq_left hlt]
    exact h

/-- **In order.** -/
theorem Inv.in_order (h : Inv wants s) (i : ι) : ∃ n, SentUpTo wants s i n := by
  rcases h.sent i with hsent | ⟨-, hsent⟩
  · exact ⟨_, hsent⟩
  · exact ⟨_, hsent⟩

/-- **Nothing is lost.** -/
theorem Inv.sent_of_acked (h : Inv wants s) (he : e ∈ s.incoming.take s.acked)
    (hwants : wants i e = true) : e ∈ s.sent i := by
  have hmem : ∀ n, s.acked ≤ n → SentUpTo wants s i n → e ∈ s.sent i := by
    intro n hn hsent
    refine List.mem_destutter_iff.mp ?_
    rw [hsent]
    exact List.mem_filter.mpr ⟨(List.take_prefix_take_left hn).subset he, hwants⟩
  rcases h.sent i with hsent | ⟨-, hsent⟩
  · exact hmem _ (Nat.le_refl _) hsent
  · exact hmem _ (Nat.le_succ _) hsent

end Fanout
