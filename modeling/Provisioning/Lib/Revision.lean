import Provisioning.Lib.Bucket

/-!
# Revisions that identify a write

A bucket numbers its writes, so a revision that is still the current one of its key says that the
key has not been written in between. That is all that optimistic concurrency rests on: whoever
writes only where the revision is still the one it has read replaces nothing it has not seen.

The revisions of the entries are at least one and at most the number of the last write. That is
part of the type here, so a missing key can be given the revision zero.
-/

namespace Store

structure Revisioned (V : Type) where
  bucket : Bucket V
  numbered : ∀ key e, bucket.get? key = some e → 0 < e.revision ∧ e.revision ≤ bucket.last

namespace Revisioned

variable {V : Type}

def empty : Revisioned V where
  bucket := .empty
  numbered := nofun

def get? (b : Revisioned V) (key : String) : Option (Entry V) := b.bucket.get? key

/-- The revision of the entry, zero if there is none. -/
def revision (b : Revisioned V) (key : String) : Nat :=
  match b.get? key with
  | some e => e.revision
  | none => 0

def put (b : Revisioned V) (key : String) (v : V) : Revisioned V where
  bucket := b.bucket.put key v
  numbered key' e h := by
    rw [Bucket.get?_put] at h
    split at h
    · rw [← Option.some.inj h]
      exact ⟨Nat.succ_pos _, Nat.le_refl _⟩
    · obtain ⟨hpos, hle⟩ := b.numbered key' e h
      exact ⟨hpos, Nat.le_succ_of_le hle⟩

def delete (b : Revisioned V) (key : String) : Revisioned V where
  bucket := b.bucket.delete key
  numbered key' e h := by
    rw [Bucket.get?_delete] at h
    split at h
    · cases h
    · obtain ⟨hpos, hle⟩ := b.numbered key' e h
      exact ⟨hpos, Nat.le_succ_of_le hle⟩

variable {b b' b'' : Revisioned V} {key : String}

theorem revision_of_get? {e : Entry V} (h : b.get? key = some e) : b.revision key = e.revision := by
  unfold revision
  rw [h]

theorem revision_eq_zero : b.revision key = 0 ↔ b.get? key = none := by
  unfold revision
  cases h : b.get? key with
  | none => exact iff_of_true rfl rfl
  | some e =>
    refine iff_of_false (fun hzero => ?_) nofun
    have hpos := (b.numbered key e h).1
    dsimp only at hzero
    omega

/-! ## What has been written since -/

/-- The second bucket is the first one some writes later: what is not in the first was written
after its last write. -/
structure Later (b b' : Revisioned V) : Prop where
  last : b.bucket.last ≤ b'.bucket.last
  entry : ∀ key e, b'.get? key = some e → b.get? key = some e ∨ b.bucket.last < e.revision

theorem Later.refl (b : Revisioned V) : Later b b :=
  ⟨Nat.le_refl _, fun _ _ h => Or.inl h⟩

theorem Later.trans (h : Later b b') (h' : Later b' b'') : Later b b'' := by
  refine ⟨Nat.le_trans h.last h'.last, ?_⟩
  intro key e he
  rcases h'.entry key e he with he' | hlt
  · exact h.entry key e he'
  · exact Or.inr (Nat.lt_of_le_of_lt h.last hlt)

theorem later_put (b : Revisioned V) (key : String) (v : V) : Later b (b.put key v) := by
  refine ⟨Nat.le_succ _, ?_⟩
  intro key' e h
  unfold get? put at h
  rw [Bucket.get?_put] at h
  split at h
  · rw [← Option.some.inj h]
    exact Or.inr (Nat.lt_succ_self _)
  · exact Or.inl h

theorem later_delete (b : Revisioned V) (key : String) : Later b (b.delete key) := by
  refine ⟨Nat.le_succ _, ?_⟩
  intro key' e h
  unfold get? delete at h
  rw [Bucket.get?_delete] at h
  split at h
  · cases h
  · exact Or.inl h

/-- **A revision identifies a write.** If the key has the revision it had, it has the entry it
had. -/
theorem Later.same (h : Later b b') (hrevision : b'.revision key = b.revision key) :
    b'.get? key = b.get? key := by
  cases he : b'.get? key with
  | none =>
    rw [revision_eq_zero.mpr he] at hrevision
    exact (revision_eq_zero.mp hrevision.symm).symm
  | some e =>
    rcases h.entry key e he with hsame | hlt
    · exact hsame.symm
    · -- An entry written since has a revision that no entry had before.
      rw [revision_of_get? he] at hrevision
      cases hold : b.get? key with
      | none =>
        rw [revision_eq_zero.mpr hold] at hrevision
        omega
      | some e' =>
        have hle := (b.numbered key e' hold).2
        rw [revision_of_get? hold] at hrevision
        omega

end Revisioned

end Store
