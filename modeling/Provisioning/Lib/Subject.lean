import Mathlib.Data.List.Basic

/-!
# Subjects, and the place of a token in one

A subject is a text of tokens with a separator between them. Splitting it at the separator gives the
tokens back, as long as none of them contains the separator (`split_join`). So a writer and a reader
who name a token by its place mean the same one, if they count from the same end.

A place can be counted from the front or from the end, as a negative index. What a negative index
finds is settled by what follows the token, and by nothing else (`item?_append_cons`): two readers
that count from different ends agree for one length of subject only.
-/

namespace Subject

/-! ## Tokens -/

/-- A text that can stand between two separators. -/
structure Token (sep : Char) where
  text : String
  whole : sep ∉ text.toList

/-- `sep.join(tokens)`. -/
def join (sep : Char) (tokens : List String) : String :=
  String.ofList ([sep].intercalate (tokens.map String.toList))

/-- `text.split(sep)`. -/
def split (sep : Char) (text : String) : List String :=
  (text.toList.splitOn sep).map String.ofList

/-- **What was joined is what is split.** -/
theorem split_join {sep : Char} {tokens : List String} (hne : tokens ≠ [])
    (h : ∀ token ∈ tokens, sep ∉ token.toList) : split sep (join sep tokens) = tokens := by
  have hwhole : ∀ chars ∈ tokens.map String.toList, sep ∉ chars := by
    intro chars hchars
    obtain ⟨token, htoken, rfl⟩ := List.mem_map.mp hchars
    exact h token htoken
  have hsplit : ([sep].intercalate (tokens.map String.toList)).splitOn sep =
      tokens.map String.toList :=
    List.splitOn_intercalate sep hwhole fun hnil => hne (List.map_eq_nil_iff.mp hnil)
  unfold split join
  rw [String.toList_ofList, hsplit, List.map_map]
  have hid : String.ofList ∘ String.toList = id := funext fun _ => String.ofList_toList
  rw [hid, List.map_id]

/-! ## Places -/

variable {α : Type}

/-- `items[i]`. A negative index counts from the end. -/
def item? (items : List α) : Int → Option α
  | .ofNat i => items[i]?
  | .negSucc i => items.reverse[i]?

/-- A negative index finds the item that so many others follow. -/
theorem item?_append_cons (before : List α) (item : α) (after : List α) :
    item? (before ++ item :: after) (.negSucc after.length) = some item := by
  show (before ++ item :: after).reverse[after.length]? = some item
  rw [List.reverse_append, List.reverse_cons, List.append_assoc]
  rw [List.getElem?_append_right (Nat.le_of_eq List.length_reverse), List.length_reverse,
    Nat.sub_self]
  rfl

/-! ## Numbers -/

/-- A token of decimal digits. -/
structure Numeral where
  text : String
  nonempty : text.toList.isEmpty = false
  digits : text.toList.all Char.isDigit = true

namespace Numeral

def value (n : Numeral) : Nat := Nat.ofDigitChars 10 n.text.toList 0

/-- The usual way to write a number. -/
def ofNat (k : Nat) : Numeral where
  text := k.repr
  nonempty := by
    rw [Nat.toList_repr]
    exact List.isEmpty_eq_false_iff.mpr (List.length_pos_iff.mp Nat.length_toDigits_pos)
  digits := by
    rw [Nat.toList_repr]
    exact List.all_eq_true.mpr fun c hc =>
      Nat.isDigit_of_mem_toDigits (by decide) (by decide) hc

@[simp] theorem value_ofNat (k : Nat) : (ofNat k).value = k := by
  unfold value ofNat
  rw [Nat.toList_repr]
  exact Nat.ofDigitChars_ten_toDigits

/-- A numeral fits between any separators that are no digits themselves. -/
theorem whole (n : Numeral) {sep : Char} (h : sep.isDigit = false) : sep ∉ n.text.toList := by
  intro hsep
  have hdigit := List.all_eq_true.mp n.digits sep hsep
  rw [h] at hdigit
  cases hdigit

/-- Read a number, if the text is one. -/
def read? (text : String) : Option Nat :=
  if !text.toList.isEmpty && text.toList.all Char.isDigit then
    some (Nat.ofDigitChars 10 text.toList 0)
  else none

theorem read?_text (n : Numeral) : read? n.text = some n.value := by
  unfold read?
  rw [n.nonempty, n.digits]
  rfl

end Numeral

end Subject
