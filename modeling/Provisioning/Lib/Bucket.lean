import Mathlib.Data.List.AList

/-!
# A key-value bucket with revisions

Every write to the bucket, a deletion included, takes the next number of one counter, and an entry
remembers two of them: the write that gave it its value (`revision`) and the write that brought
the key into being (`created`). An overwrite keeps the second and changes the first, so `created`
tells two lifetimes of one key apart, which the value alone does not.

The entries are an association list without repeated keys, so "each key once" is part of the
type. Its order is not promised by anything here.
-/

namespace Store

structure Entry (V : Type) where
  value : V
  revision : Nat
  created : Nat

structure Bucket (V : Type) where
  entries : AList fun _ : String => Entry V
  last : Nat

namespace Bucket

variable {V : Type}

def empty : Bucket V := ⟨∅, 0⟩

def get? (b : Bucket V) (key : String) : Option (Entry V) := b.entries.lookup key

def value? (b : Bucket V) (key : String) : Option V := (b.get? key).map (·.value)

def keys (b : Bucket V) : List String := b.entries.keys

/-- The entry `put` writes: a new lifetime only where there was no entry. -/
def fresh (b : Bucket V) (key : String) (v : V) : Entry V :=
  ⟨v, b.last + 1, match b.get? key with
    | some e => e.created
    | none => b.last + 1⟩

def put (b : Bucket V) (key : String) (v : V) : Bucket V :=
  ⟨b.entries.insert key (b.fresh key v), b.last + 1⟩

def delete (b : Bucket V) (key : String) : Bucket V :=
  ⟨b.entries.erase key, b.last + 1⟩

theorem get?_put (b : Bucket V) (key key' : String) (v : V) :
    (b.put key v).get? key' = if key' = key then some (b.fresh key v) else b.get? key' := by
  unfold get? put
  split
  · next h => rw [h]; exact AList.lookup_insert _
  · next h => exact AList.lookup_insert_ne h

theorem get?_delete (b : Bucket V) (key key' : String) :
    (b.delete key).get? key' = if key' = key then none else b.get? key' := by
  unfold get? delete
  split
  · next h => rw [h]; exact AList.lookup_erase _ _
  · next h => exact AList.lookup_erase_ne h

@[simp] theorem value?_put_self (b : Bucket V) (key : String) (v : V) :
    (b.put key v).value? key = some v := by
  simp [value?, get?_put, fresh]

theorem value?_put_of_ne {key key' : String} (h : key' ≠ key) (b : Bucket V) (v : V) :
    (b.put key v).value? key' = b.value? key' := by
  simp [value?, get?_put, h]

@[simp] theorem value?_delete_self (b : Bucket V) (key : String) :
    (b.delete key).value? key = none := by
  simp [value?, get?_delete]

theorem value?_delete_of_ne {key key' : String} (h : key' ≠ key) (b : Bucket V) :
    (b.delete key).value? key' = b.value? key' := by
  simp [value?, get?_delete, h]

theorem value?_put (b : Bucket V) (key key' : String) (v : V) :
    (b.put key v).value? key' = if key' = key then some v else b.value? key' := by
  split
  · next h => rw [h, value?_put_self]
  · next h => rw [value?_put_of_ne h]

/-- Overwriting an entry does not start a new lifetime. -/
theorem created_put_self {b : Bucket V} {key : String} {e : Entry V} (h : b.get? key = some e)
    (v : V) : (b.put key v).get? key = some ⟨v, b.last + 1, e.created⟩ := by
  simp [get?_put, fresh, h]

theorem get?_put_of_ne {key key' : String} (h : key' ≠ key) (b : Bucket V) (v : V) :
    (b.put key v).get? key' = b.get? key' := by
  rw [get?_put, if_neg h]

theorem get?_delete_of_ne {key key' : String} (h : key' ≠ key) (b : Bucket V) :
    (b.delete key).get? key' = b.get? key' := by
  rw [get?_delete, if_neg h]

theorem value?_eq_some {b : Bucket V} {key : String} {v : V} (h : b.value? key = some v) :
    ∃ e, b.get? key = some e ∧ e.value = v := by
  unfold value? at h
  cases hg : b.get? key with
  | none => rw [hg] at h; cases h
  | some e => rw [hg] at h; exact ⟨e, rfl, Option.some.inj h⟩

theorem value?_eq_none {b : Bucket V} {key : String} : b.value? key = none ↔ b.get? key = none := by
  unfold value?
  cases b.get? key <;> simp

theorem get?_of_mem_keys {b : Bucket V} {key : String} (h : key ∈ b.keys) :
    ∃ e, b.get? key = some e :=
  Option.isSome_iff_exists.mp (AList.lookup_isSome.mpr h)

theorem mem_keys_of_get? {b : Bucket V} {key : String} {e : Entry V} (h : b.get? key = some e) :
    key ∈ b.keys :=
  AList.lookup_isSome.mp (Option.isSome_iff_exists.mpr ⟨e, h⟩)

end Bucket

end Store
