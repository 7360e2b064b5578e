import Provisioning.Lib.Stream

/-!
# A stream as a queue

A stream whose acknowledged messages are removed, and one consumer that acknowledges: as long as
nobody else takes messages out, what is stored is what has not been acknowledged. So what a fetch
finds is the front, and an acknowledgement of the front leaves the rest.
-/

namespace Store.Stream

variable {π : Type} {s : Stream π} {consumer subject : String} {d d' : Durable} {m : Stored π}

structure IsQueue (s : Stream π) (consumer : String) : Prop where
  workQueue : s.workQueue = true
  served : ∃ d, s.durables consumer = some d
  stored : ∀ m ∈ s.msgs, m.seq ∉ s.acked consumer
  acked : ∀ seq ∈ s.acked consumer, seq ≤ s.last

namespace IsQueue

theorem append (h : s.IsQueue consumer) (payload : π) (origin : Nat) :
    (s.append subject payload origin).IsQueue consumer := by
  refine ⟨h.workQueue, h.served, fun m hm => ?_, fun seq hseq => ?_⟩
  · rw [acked_append]
    rcases mem_append hm with hm | rfl
    · exact h.stored m hm
    · -- The next number is beyond all that were acknowledged.
      intro hacked
      exact absurd (h.acked _ hacked) (Nat.not_succ_le_self _)
  · exact Nat.le_succ_of_le (h.acked seq hseq)

/-- Whatever becomes of a delivery short of an acknowledgement. -/
theorem setDurable (h : s.IsQueue consumer) (hd : s.durables consumer = some d)
    (hacked : d'.acked = d.acked) : (s.setDurable consumer (some d')).IsQueue consumer := by
  have hsame : (s.setDurable consumer (some d')).acked consumer = s.acked consumer := by
    rw [acked_of_durable (durables_setDurable_self ..), acked_of_durable hd, hacked]
  refine ⟨h.workQueue, ⟨d', durables_setDurable_self ..⟩, fun m hm => ?_, fun seq hseq => ?_⟩
  · rw [hsame]
    exact h.stored m hm
  · rw [hsame] at hseq
    exact h.acked seq hseq

/-- A fetch finds the front. -/
theorem front_of_fetch (h : s.IsQueue consumer) (hd : s.durables consumer = some d)
    (hm : s.fetch d = some m) : ∃ rest, s.msgs = m :: rest := by
  have hold := oldest_of_fetch hm
  unfold oldest at hold
  cases hmsgs : s.msgs with
  | nil =>
    rw [hmsgs] at hold
    cases hold
  | cons front rest =>
    have hfront : front.seq ∉ d.acked := by
      rw [← acked_of_durable hd]
      exact h.stored front (by rw [hmsgs]; exact List.mem_cons_self)
    rw [hmsgs, List.find?_cons_of_pos (by simpa using hfront)] at hold
    cases hold
    exact ⟨rest, rfl⟩

variable {rest : List (Stored π)}

/-- While no delivery is out the front is found. -/
theorem fetch_front (h : s.IsQueue consumer) (hd : s.durables consumer = some d)
    (hfree : d.pending = none) (hmsgs : s.msgs = m :: rest) : s.fetch d = some m := by
  refine fetch_of_front hfree hmsgs ?_
  rw [← acked_of_durable hd]
  exact h.stored m (by rw [hmsgs]; exact List.mem_cons_self)

/-- An acknowledgement of the front leaves the rest. -/
theorem msgs_ack (hmsgs : s.msgs = m :: rest) :
    ((s.setDurable consumer (some (d.ack m.seq))).keep (·.seq != m.seq)).msgs = rest :=
  msgs_keep_front ((msgs_setDurable ..).trans hmsgs)

theorem ack (h : s.IsQueue consumer) (hd : s.durables consumer = some d)
    (hmsgs : s.msgs = m :: rest) :
    ((s.setDurable consumer (some (d.ack m.seq))).keep (·.seq != m.seq)).IsQueue consumer := by
  have hmem : ∀ n ∈ m :: rest, n ∈ s.msgs := fun n hn => hmsgs ▸ hn
  have hall : ((s.setDurable consumer (some (d.ack m.seq))).keep (·.seq != m.seq)).acked consumer =
      m.seq :: s.acked consumer := by
    rw [acked_keep, acked_of_durable (durables_setDurable_self ..), acked_of_durable hd]
    rfl
  refine ⟨h.workQueue, ⟨_, durables_setDurable_self ..⟩, fun n hn => ?_, fun seq hseq => ?_⟩
  · rw [hall]
    intro hacked
    rcases List.mem_cons.mp hacked with heq | hacked
    · have hne := (List.mem_filter.mp hn).2
      rw [heq, bne_self_eq_false] at hne
      cases hne
    · exact h.stored n (mem_of_keep hn) hacked
  · rw [hall] at hseq
    rcases List.mem_cons.mp hseq with rfl | hseq
    · exact s.bounded m (hmem m List.mem_cons_self)
    · exact h.acked seq hseq

end IsQueue

end Store.Stream
