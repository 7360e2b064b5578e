import Provisioning.Lib.Stream

/-!
# The log behind a stream

Where messages leave a stream only from the front, the stream is what is left of a log: of all
entries there have been, those after the first so many. The log is an auxiliary of proofs; it keeps
what the stream forgets, and so invariants can speak of messages that are gone.

An entry is a number and a payload. Numbers grow along the log and are bounded by the last one of
the stream, so a new entry is none of the old ones, and a number identifies its entry.
-/

namespace Store

variable {π : Type}

/-- The stream holds the log without its first `gone` entries. -/
structure Logged (log : List (Nat × π)) (gone : Nat) (s : Stream π) : Prop where
  msgs : s.msgs.map (fun m => (m.seq, m.payload)) = log.drop gone
  bounded : ∀ e ∈ log, e.1 ≤ s.last
  sorted : log.Pairwise (·.1 < ·.1)

section

variable {log : List (Nat × π)} {gone : Nat} {s : Stream π}

/-- A stream is its own log. -/
theorem logged_self (s : Stream π) : Logged (s.msgs.map fun m => (m.seq, m.payload)) 0 s := by
  refine ⟨rfl, fun e he => ?_, List.pairwise_map.mpr s.sorted⟩
  obtain ⟨m, hm, rfl⟩ := List.mem_map.mp he
  exact s.bounded m hm

theorem Logged.nodup (h : Logged log gone s) : log.Nodup :=
  h.sorted.imp fun hlt heq => Nat.ne_of_lt hlt (congrArg Prod.fst heq)

/-- A new entry is none of the old ones. -/
theorem Logged.new (h : Logged log gone s) (payload : π) : (s.last + 1, payload) ∉ log :=
  fun hmem => Nat.not_succ_le_self _ (h.bounded _ hmem)

theorem Logged.mem_drop (h : Logged log gone s) {m : Stored π} (hm : m ∈ s.msgs) :
    (m.seq, m.payload) ∈ log.drop gone := by
  rw [← h.msgs]
  exact List.mem_map_of_mem hm

/-- What the stream begins with is the next entry of the log. -/
theorem Logged.head (h : Logged log gone s) {m : Stored π} (hm : s.msgs.head? = some m) :
    log[gone]? = some (m.seq, m.payload) := by
  rw [← List.head?_drop, ← h.msgs, List.head?_map, hm]
  rfl

/-- …and that is the message with the smallest number. -/
theorem Logged.front (h : Logged log gone s) {m : Stored π} (hm : m ∈ s.msgs)
    (hfirst : ∀ n ∈ s.msgs, m.seq ≤ n.seq) : log[gone]? = some (m.seq, m.payload) := by
  apply h.head
  cases hmsgs : s.msgs with
  | nil => rw [hmsgs] at hm; cases hm
  | cons n rest =>
    have hle := hfirst n (hmsgs ▸ List.mem_cons_self)
    rw [hmsgs] at hm
    rcases List.mem_cons.mp hm with rfl | hrest
    · rfl
    · have hsorted := s.sorted
      rw [hmsgs] at hsorted
      have hlt := (List.pairwise_cons.mp hsorted).1 m hrest
      exact absurd hle (Nat.not_le_of_lt hlt)

theorem Logged.append (h : Logged log gone s) (hle : gone ≤ log.length) (subject : String)
    (payload : π) (origin : Nat) :
    Logged (log ++ [(s.last + 1, payload)]) gone (s.append subject payload origin) := by
  refine ⟨?_, fun e he => ?_, ?_⟩
  · rw [Stream.msgs_append, List.map_append, h.msgs, List.drop_append_of_le_length hle]
    rfl
  · rcases List.mem_append.mp he with he | he
    · exact Nat.le_succ_of_le (h.bounded e he)
    · rw [List.mem_singleton.mp he]
      exact Nat.le_refl _
  · refine List.pairwise_append.mpr ⟨h.sorted, List.pairwise_singleton .., fun e he e' he' => ?_⟩
    rw [List.mem_singleton.mp he']
    exact Nat.lt_succ_of_le (h.bounded e he)

/-- A number identifies an entry. -/
theorem eq_of_fst_eq (hsorted : log.Pairwise (·.1 < ·.1)) {e e' : Nat × π}
    (he : e ∈ log) (he' : e' ∈ log) (h : e.1 = e'.1) : e = e' := by
  obtain ⟨i, hi, rfl⟩ := List.getElem_of_mem he
  obtain ⟨j, hj, rfl⟩ := List.getElem_of_mem he'
  have hpairs := List.pairwise_iff_getElem.mp hsorted
  rcases Nat.lt_trichotomy i j with hlt | heq | hgt
  · exact absurd h (Nat.ne_of_lt (hpairs i j hi hj hlt))
  · subst heq
    rfl
  · exact absurd h.symm (Nat.ne_of_lt (hpairs j i hj hi hgt))

/-- Taking an entry out of those that are left. -/
theorem filter_drop (hsorted : log.Pairwise (·.1 < ·.1)) {j : Nat} {e : Nat × π}
    (he : log[j]? = some e) (hj : j ≤ gone) :
    (log.drop gone).filter (·.1 != e.1) = log.drop (max gone (j + 1)) := by
  obtain ⟨hlt, hje⟩ := List.getElem?_eq_some_iff.mp he
  have hlater : ∀ e' ∈ log.drop (j + 1), e.1 < e'.1 := by
    have hsplit : (log.drop j).Pairwise (·.1 < ·.1) := hsorted.drop
    rw [List.drop_eq_getElem_cons hlt, hje] at hsplit
    exact (List.pairwise_cons.mp hsplit).1
  have hkeep : ∀ n, j + 1 ≤ n → (log.drop n).filter (·.1 != e.1) = log.drop n := by
    intro n hn
    apply List.filter_eq_self.mpr
    intro e' he'
    have hmem : e' ∈ log.drop (j + 1) := (List.drop_sublist_drop_left log hn).subset he'
    simpa using Nat.ne_of_gt (hlater e' hmem)
  rcases Nat.eq_or_lt_of_le hj with rfl | hj
  · rw [List.drop_eq_getElem_cons hlt, hje, List.filter_cons_of_neg (by simp),
      hkeep _ (Nat.le_refl _), Nat.max_eq_right (Nat.le_succ j)]
  · rw [hkeep _ hj, Nat.max_eq_left hj]

/-- **An entry leaves the stream**: the next one, or one that had left it before. -/
theorem Logged.remove (h : Logged log gone s) {j : Nat} {e : Nat × π} (he : log[j]? = some e)
    (hj : j ≤ gone) : Logged log (max gone (j + 1)) (s.keep (·.seq != e.1)) := by
  refine ⟨?_, h.bounded, h.sorted⟩
  rw [← filter_drop h.sorted he hj, ← h.msgs, List.filter_map]
  rfl

end

end Store
