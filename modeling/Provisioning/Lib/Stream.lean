import Mathlib.Data.List.Pairwise

/-!
# A message stream with durable consumers

A stream is a log of messages numbered in the order they were stored. Messages leave it from any
position (deletion, purging, or acknowledgement where the retention says so) but the numbers are
never reused, so the log stays sorted: `sorted` and `bounded` are fields, and every operation
below has to pay for them once.

A durable consumer with `max_ack_pending = 1` is a cursor that holds at most one delivery at a
time. Fetching returns the oldest message it has not seen acknowledged. While its last delivery
is neither acknowledged, deleted, refused nor expired, fetching times out. The consumer knows
nothing of subjects: there is no filter.

## What stays

`Grows` is what every operation does to a stream: the numbers go on, and whatever is there later was
there before, as it is, or has come in at the back. What is stated along it holds at any later time,
whatever has happened in between. `Front` is the fact that is used most: the oldest message that
is left is this one, or newer. A fetch that finds nothing acknowledged returns it
(`front_of_fetch`).
-/

namespace Store

structure Stored (π : Type) where
  seq : Nat
  subject : String
  payload : π
  /-- Who published the message. No program reads it. -/
  origin : Nat

/-- The state of one durable consumer. -/
structure Durable where
  pending : Option Nat
  acked : List Nat
  /-- Every delivery there was, newest first. -/
  delivered : List Nat

namespace Durable

def fresh : Durable := ⟨none, [], []⟩

def deliver (d : Durable) (seq : Nat) : Durable :=
  ⟨some seq, d.acked, seq :: d.delivered⟩

/-- The pending delivery of `seq` is over. -/
def release (d : Durable) (seq : Nat) : Durable :=
  { d with pending := if d.pending = some seq then none else d.pending }

def ack (d : Durable) (seq : Nat) : Durable :=
  { d.release seq with acked := seq :: d.acked }

/-- The ack wait of the pending delivery has passed. -/
def expire (d : Durable) : Durable := { d with pending := none }

/-- How often `seq` has been delivered. -/
def numDelivered (d : Durable) (seq : Nat) : Nat := d.delivered.count seq

@[simp] theorem acked_deliver (d : Durable) (seq : Nat) : (d.deliver seq).acked = d.acked := rfl
@[simp] theorem acked_release (d : Durable) (seq : Nat) : (d.release seq).acked = d.acked := rfl
@[simp] theorem acked_ack (d : Durable) (seq : Nat) : (d.ack seq).acked = seq :: d.acked := rfl
@[simp] theorem acked_expire (d : Durable) : d.expire.acked = d.acked := rfl

theorem numDelivered_deliver_self (d : Durable) (seq : Nat) :
    (d.deliver seq).numDelivered seq = d.numDelivered seq + 1 := List.count_cons_self

theorem numDelivered_deliver_of_ne {seq seq' : Nat} (h : seq' ≠ seq) (d : Durable) :
    (d.deliver seq').numDelivered seq = d.numDelivered seq := List.count_cons_of_ne h

end Durable

structure Stream (π : Type) where
  subjects : List String
  /-- WORK_QUEUE retention: an acknowledged message is removed. -/
  workQueue : Bool
  last : Nat
  msgs : List (Stored π)
  durables : String → Option Durable
  sorted : msgs.Pairwise (·.seq < ·.seq)
  bounded : ∀ m ∈ msgs, m.seq ≤ last

namespace Stream

variable {π : Type}

def new (subjects : List String) (workQueue : Bool) : Stream π where
  subjects := subjects
  workQueue := workQueue
  last := 0
  msgs := []
  durables := fun _ => none
  sorted := .nil
  bounded := nofun

/-- Store one message at the end. -/
def append (s : Stream π) (subject : String) (payload : π) (origin : Nat) : Stream π where
  subjects := s.subjects
  workQueue := s.workQueue
  last := s.last + 1
  msgs := s.msgs ++ [⟨s.last + 1, subject, payload, origin⟩]
  durables := s.durables
  sorted := by
    refine List.pairwise_append.mpr ⟨s.sorted, List.pairwise_singleton .., fun m hm n hn => ?_⟩
    rw [List.mem_singleton.mp hn]
    exact Nat.lt_succ_of_le (s.bounded m hm)
  bounded := by
    intro m hm
    rcases List.mem_append.mp hm with hm | hm
    · exact Nat.le_succ_of_le (s.bounded m hm)
    · exact Nat.le_of_eq (congrArg Stored.seq (List.mem_singleton.mp hm))

/-- Keep only the messages that satisfy `p`. -/
def keep (s : Stream π) (p : Stored π → Bool) : Stream π where
  subjects := s.subjects
  workQueue := s.workQueue
  last := s.last
  msgs := s.msgs.filter p
  durables := s.durables
  sorted := s.sorted.filter p
  bounded := fun m hm => s.bounded m (List.mem_filter.mp hm).1

def reconfigure (s : Stream π) (subjects : List String) (workQueue : Bool) : Stream π :=
  { s with subjects := subjects, workQueue := workQueue }

def setDurable (s : Stream π) (name : String) (d : Option Durable) : Stream π :=
  { s with durables := fun n => if n = name then d else s.durables n }

def stored (s : Stream π) (seq : Nat) : Bool := s.msgs.any (·.seq == seq)

/-- What the consumer of that name has acknowledged; a consumer that does not exist has
acknowledged nothing. -/
def acked (s : Stream π) (name : String) : List Nat :=
  match s.durables name with
  | some d => d.acked
  | none => []

/-- The consumer's last delivery is still out. -/
def waiting (s : Stream π) (d : Durable) : Bool :=
  match d.pending with
  | some seq => s.stored seq
  | none => false

/-- The oldest message the consumer has not seen acknowledged. -/
def oldest (s : Stream π) (d : Durable) : Option (Stored π) :=
  s.msgs.find? fun m => decide (m.seq ∉ d.acked)

/-- What a fetch finds: nothing (it times out), or a message to deliver. -/
def fetch (s : Stream π) (d : Durable) : Option (Stored π) :=
  if s.waiting d then none else s.oldest d

/-! ## What the operations leave -/

@[simp] theorem msgs_new (subjects : List String) (workQueue : Bool) :
    (new subjects workQueue : Stream π).msgs = [] := rfl
@[simp] theorem subjects_new (subjects : List String) (workQueue : Bool) :
    (new subjects workQueue : Stream π).subjects = subjects := rfl
@[simp] theorem msgs_append (s : Stream π) (subject : String) (payload : π) (origin : Nat) :
    (s.append subject payload origin).msgs
      = s.msgs ++ [⟨s.last + 1, subject, payload, origin⟩] := rfl
@[simp] theorem subjects_append (s : Stream π) (subject : String) (payload : π) (origin : Nat) :
    (s.append subject payload origin).subjects = s.subjects := rfl
@[simp] theorem durables_append (s : Stream π) (subject : String) (payload : π) (origin : Nat) :
    (s.append subject payload origin).durables = s.durables := rfl
@[simp] theorem msgs_keep (s : Stream π) (p : Stored π → Bool) :
    (s.keep p).msgs = s.msgs.filter p := rfl
@[simp] theorem subjects_keep (s : Stream π) (p : Stored π → Bool) :
    (s.keep p).subjects = s.subjects := rfl
@[simp] theorem durables_keep (s : Stream π) (p : Stored π → Bool) :
    (s.keep p).durables = s.durables := rfl
@[simp] theorem msgs_reconfigure (s : Stream π) (subjects : List String) (workQueue : Bool) :
    (s.reconfigure subjects workQueue).msgs = s.msgs := rfl
@[simp] theorem subjects_reconfigure (s : Stream π) (subjects : List String) (workQueue : Bool) :
    (s.reconfigure subjects workQueue).subjects = subjects := rfl
@[simp] theorem durables_reconfigure (s : Stream π) (subjects : List String) (workQueue : Bool) :
    (s.reconfigure subjects workQueue).durables = s.durables := rfl
@[simp] theorem msgs_setDurable (s : Stream π) (name : String) (d : Option Durable) :
    (s.setDurable name d).msgs = s.msgs := rfl
@[simp] theorem subjects_setDurable (s : Stream π) (name : String) (d : Option Durable) :
    (s.setDurable name d).subjects = s.subjects := rfl
@[simp] theorem durables_setDurable_self (s : Stream π) (name : String) (d : Option Durable) :
    (s.setDurable name d).durables name = d := if_pos rfl
theorem durables_setDurable_of_ne {name name' : String} (h : name' ≠ name) (s : Stream π)
    (d : Option Durable) : (s.setDurable name d).durables name' = s.durables name' := if_neg h

theorem acked_of_durable {s : Stream π} {name : String} {d : Durable}
    (h : s.durables name = some d) : s.acked name = d.acked := by
  unfold acked
  rw [h]

theorem acked_of_no_durable {s : Stream π} {name : String} (h : s.durables name = none) :
    s.acked name = [] := by
  unfold acked
  rw [h]

@[simp] theorem acked_append (s : Stream π) (subject : String) (payload : π) (origin : Nat)
    (name : String) : (s.append subject payload origin).acked name = s.acked name := rfl
@[simp] theorem acked_keep (s : Stream π) (p : Stored π → Bool) (name : String) :
    (s.keep p).acked name = s.acked name := rfl
@[simp] theorem acked_reconfigure (s : Stream π) (subjects : List String) (workQueue : Bool)
    (name : String) : (s.reconfigure subjects workQueue).acked name = s.acked name := rfl

/-- Replacing a consumer by one that has acknowledged as much loses no acknowledgement. -/
theorem acked_setDurable {s : Stream π} {name name' : String} {d : Durable}
    (hd : ∀ seq ∈ s.acked name', seq ∈ d.acked) {seq : Nat} (h : seq ∈ s.acked name) :
    seq ∈ (s.setDurable name' (some d)).acked name := by
  by_cases hname : name = name'
  · subst hname
    rw [acked_of_durable (durables_setDurable_self ..)]
    exact hd seq h
  · unfold acked at h ⊢
    rw [durables_setDurable_of_ne hname]
    exact h

/-- A message that was stored is an old one or the one just appended. -/
theorem mem_append {s : Stream π} {subject : String} {payload : π} {origin : Nat} {m : Stored π}
    (h : m ∈ (s.append subject payload origin).msgs) :
    m ∈ s.msgs ∨ m = ⟨s.last + 1, subject, payload, origin⟩ := by
  rcases List.mem_append.mp h with h | h
  · exact Or.inl h
  · exact Or.inr (List.mem_singleton.mp h)

/-- A number identifies a message. -/
theorem eq_of_seq_eq {s : Stream π} {m n : Stored π} (hm : m ∈ s.msgs) (hn : n ∈ s.msgs)
    (h : m.seq = n.seq) : m = n := by
  obtain ⟨i, hi, rfl⟩ := List.getElem_of_mem hm
  obtain ⟨j, hj, rfl⟩ := List.getElem_of_mem hn
  have hsorted := List.pairwise_iff_getElem.mp s.sorted
  rcases Nat.lt_trichotomy i j with hlt | heq | hgt
  · exact absurd h (Nat.ne_of_lt (hsorted i j hi hj hlt))
  · subst heq
    rfl
  · exact absurd h.symm (Nat.ne_of_lt (hsorted j i hj hi hgt))

/-- Taking out a number takes out one message. -/
theorem mem_keep_seq_ne {s : Stream π} {m n : Stored π} (hm : m ∈ s.msgs) :
    n ∈ (s.keep (·.seq != m.seq)).msgs ↔ n ∈ s.msgs ∧ n ≠ m := by
  rw [msgs_keep, List.mem_filter]
  refine and_congr_right fun hn => ?_
  rw [bne_iff_ne]
  exact not_congr ⟨fun heq => eq_of_seq_eq hn hm heq, congrArg Stored.seq⟩

theorem mem_of_keep {s : Stream π} {p : Stored π → Bool} {m : Stored π}
    (h : m ∈ (s.keep p).msgs) : m ∈ s.msgs := (List.mem_filter.mp h).1

theorem mem_of_oldest {s : Stream π} {d : Durable} {m : Stored π} (h : s.oldest d = some m) :
    m ∈ s.msgs := List.mem_of_find?_eq_some h

theorem not_acked_of_oldest {s : Stream π} {d : Durable} {m : Stored π}
    (h : s.oldest d = some m) : m.seq ∉ d.acked := by
  simpa using List.find?_some h

/-- **In order.** Everything stored before the message a fetch returns has been acknowledged. -/
theorem acked_of_lt_oldest {s : Stream π} {d : Durable} {m n : Stored π}
    (h : s.oldest d = some m) (hn : n ∈ s.msgs) (hlt : n.seq < m.seq) : n.seq ∈ d.acked := by
  obtain ⟨_, l₁, l₂, hsplit, hbefore⟩ := List.find?_eq_some_iff_append.mp h
  have hsorted := s.sorted
  rw [hsplit] at hn hsorted
  rcases List.mem_append.mp hn with hn | hn
  · simpa using hbefore n hn
  · -- `m` and what follows it are not before `m`.
    have htail := (List.pairwise_append.mp hsorted).2.1
    rcases List.mem_cons.mp hn with rfl | hn
    · exact absurd hlt (Nat.lt_irrefl _)
    · exact absurd hlt (Nat.lt_asymm ((List.pairwise_cons.mp htail).1 n hn))

theorem oldest_of_fetch {s : Stream π} {d : Durable} {m : Stored π} (h : s.fetch d = some m) :
    s.oldest d = some m := by
  unfold fetch at h
  split at h
  · cases h
  · exact h

/-- While no delivery is out a fetch finds the front, unless it has been acknowledged. -/
theorem fetch_of_front {s : Stream π} {d : Durable} {m : Stored π} {rest : List (Stored π)}
    (hfree : d.pending = none) (hmsgs : s.msgs = m :: rest) (hfront : m.seq ∉ d.acked) :
    s.fetch d = some m := by
  unfold fetch waiting oldest
  rw [hfree, hmsgs, List.find?_cons_of_pos (by simpa using hfront)]
  rfl

/-- Without the front the rest is left. -/
theorem msgs_keep_front {s : Stream π} {m : Stored π} {rest : List (Stored π)}
    (hmsgs : s.msgs = m :: rest) : (s.keep (·.seq != m.seq)).msgs = rest := by
  have hsorted := s.sorted
  rw [hmsgs] at hsorted
  rw [msgs_keep, hmsgs, List.filter_cons_of_neg (by simp)]
  refine List.filter_eq_self.mpr fun n hn => ?_
  have hlt := (List.pairwise_cons.mp hsorted).1 n hn
  exact bne_iff_ne.mpr (Nat.ne_of_gt hlt)

/-! ## What is not delivered -/

/-- A message the consumer will not be handed: it holds it, it has acknowledged it, or the message
is gone. -/
def Withheld (s : Stream π) (d : Durable) (seq : Nat) : Prop :=
  seq ≤ s.last ∧ (d.pending = some seq ∨ seq ∈ d.acked ∨ s.stored seq = false)

theorem stored_of_mem {s : Stream π} {m : Stored π} (h : m ∈ s.msgs) : s.stored m.seq = true :=
  List.any_eq_true.mpr ⟨m, h, beq_self_eq_true _⟩

theorem not_waiting_of_fetch {s : Stream π} {d : Durable} {m : Stored π}
    (h : s.fetch d = some m) : s.waiting d = false := by
  unfold fetch at h
  cases hw : s.waiting d with
  | false => rfl
  | true =>
    rw [hw, if_pos rfl] at h
    cases h

/-- While the consumer holds a message that is still stored it is handed no other. -/
theorem gone_of_fetch {s : Stream π} {d : Durable} {seq : Nat} {m : Stored π}
    (hpending : d.pending = some seq) (hm : s.fetch d = some m) : s.stored seq = false := by
  have hnot := not_waiting_of_fetch hm
  unfold waiting at hnot
  rw [hpending] at hnot
  exact hnot

theorem Withheld.of_fetch {s : Stream π} {d : Durable} {seq : Nat} {m : Stored π}
    (h : s.Withheld d seq) (hm : s.fetch d = some m) : seq ∈ d.acked ∨ s.stored seq = false := by
  rcases h.2 with hpending | hrest
  · exact Or.inr (gone_of_fetch hpending hm)
  · exact hrest

theorem Withheld.ne_of_fetch {s : Stream π} {d : Durable} {seq : Nat} {m : Stored π}
    (h : s.Withheld d seq) (hm : s.fetch d = some m) : m.seq ≠ seq := by
  intro heq
  subst heq
  have hold := oldest_of_fetch hm
  rcases h.of_fetch hm with hacked | hgone
  · exact not_acked_of_oldest hold hacked
  · rw [stored_of_mem (mem_of_oldest hold)] at hgone
    cases hgone

theorem le_last_of_stored {s : Stream π} {seq : Nat} (h : s.stored seq = true) :
    seq ≤ s.last := by
  obtain ⟨m, hm, heq⟩ := List.any_eq_true.mp h
  exact eq_of_beq heq ▸ s.bounded m hm

/-- What is taken out is not stored. -/
theorem not_stored_taken (s : Stream π) (seq : Nat) :
    (s.keep (·.seq != seq)).stored seq = false := by
  refine List.any_eq_false.mpr fun m hm heq => ?_
  have hne := (List.mem_filter.mp hm).2
  rw [eq_of_beq heq, bne_self_eq_false] at hne
  cases hne

theorem stored_append {s : Stream π} {subject : String} {payload : π} {origin seq : Nat}
    (hseq : seq ≤ s.last) (h : s.stored seq = false) :
    (s.append subject payload origin).stored seq = false := by
  unfold stored at h ⊢
  rw [msgs_append, List.any_append, h]
  simp
  omega

theorem stored_keep {s : Stream π} {p : Stored π → Bool} {seq : Nat} (h : s.stored seq = false) :
    (s.keep p).stored seq = false := by
  unfold stored at h ⊢
  rw [List.any_eq_false] at h ⊢
  intro m hm
  exact h m (mem_of_keep hm)

/-! ## The front -/

/-- What is in the second stream was in the first, or has been stored since. -/
structure Grows (s t : Stream π) : Prop where
  last : s.last ≤ t.last
  msgs : ∀ m ∈ t.msgs, m ∈ s.msgs ∨ s.last < m.seq

theorem Grows.refl (s : Stream π) : s.Grows s := ⟨Nat.le_refl _, fun _ hm => Or.inl hm⟩

theorem grows_append (s : Stream π) (subject : String) (payload : π) (origin : Nat) :
    s.Grows (s.append subject payload origin) := by
  refine ⟨Nat.le_succ _, fun m hm => ?_⟩
  rcases mem_append hm with hm | rfl
  · exact Or.inl hm
  · exact Or.inr (Nat.lt_succ_self _)

theorem grows_keep (s : Stream π) (p : Stored π → Bool) : s.Grows (s.keep p) :=
  ⟨Nat.le_refl _, fun _ hm => Or.inl (mem_of_keep hm)⟩

theorem grows_setDurable (s : Stream π) (name : String) (d : Option Durable) :
    s.Grows (s.setDurable name d) := ⟨Nat.le_refl _, fun _ hm => Or.inl hm⟩

/-- A number that has been given out and is no longer stored is not stored again. -/
theorem Grows.not_stored {s t : Stream π} (hst : s.Grows t) {seq : Nat} (hseq : seq ≤ s.last)
    (h : s.stored seq = false) : t.stored seq = false := by
  unfold stored at h ⊢
  rw [List.any_eq_false] at h ⊢
  intro m hm heq
  rcases hst.msgs m hm with hold | hnew
  · exact h m hold heq
  · rw [eq_of_beq heq] at hnew
    exact absurd hseq (Nat.not_le_of_lt hnew)

/-- Nothing that is stored comes before `seq`, and if `seq` itself is stored it is this payload. -/
structure Front (s : Stream π) (seq : Nat) (payload : π) : Prop where
  le_last : seq ≤ s.last
  first : ∀ m ∈ s.msgs, seq ≤ m.seq
  payload : ∀ m ∈ s.msgs, m.seq = seq → m.payload = payload

/-- **What is at the front stays there**, or is gone: new messages go to the back. -/
theorem Front.grows {s t : Stream π} {seq : Nat} {payload : π} (h : s.Front seq payload)
    (hst : s.Grows t) : t.Front seq payload := by
  refine ⟨Nat.le_trans h.le_last hst.last, fun m hm => ?_, fun m hm heq => ?_⟩
  · rcases hst.msgs m hm with hold | hnew
    · exact h.first m hold
    · exact Nat.le_of_lt (Nat.lt_of_le_of_lt h.le_last hnew)
  · rcases hst.msgs m hm with hold | hnew
    · exact h.payload m hold heq
    · exact absurd h.le_last (Nat.not_le_of_lt (heq ▸ hnew))

/-- A consumer that acknowledges nothing is handed the front. -/
theorem front_of_fetch {s : Stream π} {d : Durable} {m : Stored π} (hd : d.acked = [])
    (hm : s.fetch d = some m) : s.Front m.seq m.payload := by
  have hold := oldest_of_fetch hm
  have hmem := mem_of_oldest hold
  refine ⟨s.bounded m hmem, fun n hn => ?_, fun n hn heq => ?_⟩
  · apply Nat.le_of_not_lt
    intro hlt
    have hacked := acked_of_lt_oldest hold hn hlt
    rw [hd] at hacked
    exact absurd hacked List.not_mem_nil
  · rw [eq_of_seq_eq hn hmem heq]

end Stream

end Store
