import Mathlib.Data.List.DropRight
import Mathlib.Data.List.TakeWhile

/-!
# Addresses and the routes they select

Between a client that writes an address and a server that reads it three things happen. The client
cuts the address at the first `?` or `#`, the server replaces the percent escapes of the path, and a
route takes out of its segments what its template leaves open.

The first two never make a text longer. So an address of which a template gets back the very
segments that were put in cannot have been touched by either, and that decides which texts can be
sent as a segment at all: **`captures_address`**.

## Lengths instead of inverses

The obvious way to the theorem is to invert the reading: to show which addresses a given path can
come from. But `unquote` is far from injective, and its inverse images have no simple description,
for bytes that are no text all become the same replacement character. The theorem does not need
them. It asks when what comes out is what was put in, and there a length argument decides: cutting
makes a text shorter unless nothing is cut, and an escape is three characters for one. What comes
through at its full length is what was sent.

The rest is about segments: a slash is no part of an escape, so the segments of what was sent can be
looked at one by one.
-/

namespace Url

/-! ## Percent escapes -/

/-- The value of a hexadecimal digit. -/
def hexValue (c : Char) : Option Nat :=
  if '0' ≤ c ∧ c ≤ '9' then some (c.toNat - '0'.toNat)
  else if 'a' ≤ c ∧ c ≤ 'f' then some (c.toNat - 'a'.toNat + 10)
  else if 'A' ≤ c ∧ c ≤ 'F' then some (c.toNat - 'A'.toNat + 10)
  else none

/-- The byte that three characters stand for, if they are an escape. -/
def escaped (c high low : Char) : Option Nat :=
  if c = '%' then do return 16 * (← hexValue high) + (← hexValue low) else none

/-- An escaped byte, or a character that stands for itself. -/
inductive Piece where
  | byte (b : Nat)
  | char (c : Char)
deriving DecidableEq, Repr

/-- The escapes of a text, found from the left. Overlapping ones do not exist, as a digit is no
percent sign. -/
def pieces : List Char → List Piece
  | c :: high :: low :: rest =>
    match escaped c high low with
    | some b => .byte b :: pieces rest
    | none => .char c :: pieces (high :: low :: rest)
  -- No room for an escape.
  | short => short.map .char

/-- There is a `%` that two hexadecimal digits follow. -/
def hasEscape : List Char → Bool
  | c :: high :: low :: rest => (escaped c high low).isSome || hasEscape (high :: low :: rest)
  | _ => false

-- The induction is the one of the function: three characters at a time where they are an escape.
theorem pieces_length_le (text : List Char) : (pieces text).length ≤ text.length := by
  induction text using pieces.induct with
  | case1 c high low rest b hb ih =>
    rw [pieces, hb]
    simp only [List.length_cons]
    omega
  | case2 c high low rest hnone ih =>
    rw [pieces, hnone]
    simp only [List.length_cons] at ih ⊢
    omega
  | case3 short hshort =>
    rw [pieces]
    · rw [List.length_map]
    · exact hshort

/-- An escape is three characters for one byte. -/
theorem pieces_length_lt {text : List Char} (h : hasEscape text = true) :
    (pieces text).length < text.length := by
  induction text using pieces.induct with
  | case1 c high low rest b hb ih =>
    have hle := pieces_length_le rest
    rw [pieces, hb]
    simp only [List.length_cons]
    omega
  | case2 c high low rest hnone ih =>
    rw [hasEscape, hnone] at h
    have hlt := ih h
    rw [pieces, hnone]
    simp only [List.length_cons] at hlt ⊢
    omega
  | case3 short hshort =>
    rw [hasEscape] at h
    · cases h
    · exact hshort

/-- Text without an escape is its characters. -/
theorem pieces_of_plain {text : List Char} (h : hasEscape text = false) :
    pieces text = text.map .char := by
  induction text using pieces.induct with
  | case1 c high low rest b hb ih =>
    rw [hasEscape, hb] at h
    cases h
  | case2 c high low rest hnone ih =>
    rw [hasEscape, hnone] at h
    rw [pieces, hnone]
    exact congrArg _ (ih h)
  | case3 short hshort =>
    rw [pieces]
    exact hshort

/-! ## Bytes as text

`bytes.decode("utf-8", "replace")`, one byte at a time. What is no character becomes U+FFFD: once
for every byte that begins nothing, and once for all of a character that is not finished. -/

/-- A character of which some bytes have been read: the bytes still to come, the bits so far, and
the bounds of the next byte. -/
structure Begun where
  missing : Nat
  bits : Nat
  lowest : Nat
  highest : Nat

/-- U+FFFD. -/
def replacement : Char := Char.ofNat 0xFFFD

/-- The first byte of a character. -/
def lead (b : Nat) : List Char × Option Begun :=
  if b < 0x80 then ([Char.ofNat b], none)
  else if 0xC2 ≤ b ∧ b ≤ 0xDF then ([], some ⟨1, b % 32, 0x80, 0xBF⟩)
  else if 0xE0 ≤ b ∧ b ≤ 0xEF then
    -- Neither overlong nor a surrogate.
    ([], some ⟨2, b % 16, if b = 0xE0 then 0xA0 else 0x80, if b = 0xED then 0x9F else 0xBF⟩)
  else if 0xF0 ≤ b ∧ b ≤ 0xF4 then
    ([], some ⟨3, b % 8, if b = 0xF0 then 0x90 else 0x80, if b = 0xF4 then 0x8F else 0xBF⟩)
  else ([replacement], none)

/-- The next byte, which goes on with the character or begins another one in its place. -/
def Begun.next (s : Begun) (b : Nat) : List Char × Option Begun :=
  if b < s.lowest ∨ s.highest < b then (replacement :: (lead b).1, (lead b).2)
  else if s.missing ≤ 1 then ([Char.ofNat (64 * s.bits + b % 64)], none)
  else ([], some ⟨s.missing - 1, 64 * s.bits + b % 64, 0x80, 0xBF⟩)

/-- The characters that a byte completes, and what it leaves begun. -/
def feed : Option Begun → Nat → List Char × Option Begun
  | none, b => lead b
  | some s, b => s.next b

/-- No byte follows. -/
def flush : Option Begun → List Char
  | none => []
  | some _ => [replacement]

/-- The text of the pieces, from where the decoding has got to. A character that stands for itself
ends one that is not finished. -/
def decodeFrom : Option Begun → List Piece → List Char
  | s, [] => flush s
  | s, .byte b :: rest => (feed s b).1 ++ decodeFrom (feed s b).2 rest
  | s, .char c :: rest => flush s ++ c :: decodeFrom none rest

/-- `urllib.parse.unquote`. -/
def unquote (text : List Char) : List Char := decodeFrom none (pieces text)

/-- A byte adds at most one character, counting the one that would be given up. -/
theorem lead_length_le (b : Nat) : (lead b).1.length + (flush (lead b).2).length ≤ 1 := by
  unfold lead
  split
  · exact Nat.le_refl _
  · split
    · exact Nat.le_refl _
    · split
      · exact Nat.le_refl _
      · split
        · exact Nat.le_refl _
        · exact Nat.le_refl _

-- The bound has to count a character that is begun, since its replacement may still come.
theorem feed_length_le (s : Option Begun) (b : Nat) :
    (feed s b).1.length + (flush (feed s b).2).length ≤ (flush s).length + 1 := by
  have hlead := lead_length_le b
  cases s with
  | none =>
    show (lead b).1.length + (flush (lead b).2).length ≤ 0 + 1
    omega
  | some s =>
    show (s.next b).1.length + (flush (s.next b).2).length ≤ 2
    unfold Begun.next
    split
    · show (lead b).1.length + 1 + (flush (lead b).2).length ≤ 2
      omega
    · split
      · exact Nat.le_succ 1
      · exact Nat.le_succ 1

theorem decodeFrom_length_le (s : Option Begun) (ps : List Piece) :
    (decodeFrom s ps).length ≤ (flush s).length + ps.length := by
  induction ps generalizing s with
  | nil => exact Nat.le_refl _
  | cons p rest ih =>
    cases p with
    | byte b =>
      have hfeed := feed_length_le s b
      have hrest := ih (feed s b).2
      simp only [decodeFrom, List.length_append, List.length_cons]
      omega
    | char c =>
      have hrest := ih none
      have hnone : (flush none).length = 0 := rfl
      simp only [decodeFrom, List.length_append, List.length_cons]
      omega

/-- Characters that stand for themselves are the text. -/
theorem decodeFrom_chars (text : List Char) : decodeFrom none (text.map .char) = text := by
  induction text with
  | nil => rfl
  | cons c rest ih =>
    show c :: decodeFrom none (rest.map .char) = c :: rest
    rw [ih]

theorem unquote_length_le (text : List Char) : (unquote text).length ≤ text.length :=
  Nat.le_trans (Nat.le_trans (decodeFrom_length_le none _) (Nat.le_of_eq (Nat.zero_add _)))
    (pieces_length_le text)

/-- An escape makes the text shorter, whatever its byte stands for. -/
theorem unquote_length_lt {text : List Char} (h : hasEscape text = true) :
    (unquote text).length < text.length :=
  Nat.lt_of_le_of_lt (Nat.le_trans (decodeFrom_length_le none _) (Nat.le_of_eq (Nat.zero_add _)))
    (pieces_length_lt h)

/-- **Text without escapes, and no other, means itself.** -/
theorem unquote_eq_self_iff {text : List Char} :
    unquote text = text ↔ hasEscape text = false := by
  constructor
  · intro h
    cases hescape : hasEscape text with
    | false => rfl
    | true =>
      have hlt := unquote_length_lt hescape
      rw [h] at hlt
      exact absurd hlt (Nat.lt_irrefl _)
  · intro h
    unfold unquote
    rw [pieces_of_plain h, decodeFrom_chars]

/-! ## Where the address ends -/

/-- Nothing in the text ends the path of an address. -/
def Unmarked (text : List Char) : Prop := '?' ∉ text ∧ '#' ∉ text

instance (text : List Char) : Decidable (Unmarked text) :=
  inferInstanceAs (Decidable ('?' ∉ text ∧ '#' ∉ text))

/-- The part of an address before its query and its fragment. -/
def beforeQuery (address : List Char) : List Char :=
  address.takeWhile fun c => c != '?' && c != '#'

theorem unmarked_append {text text' : List Char} :
    Unmarked (text ++ text') ↔ Unmarked text ∧ Unmarked text' := by
  unfold Unmarked
  rw [List.mem_append, List.mem_append, not_or, not_or]
  exact and_and_and_comm

-- The condition in the two forms that `takeWhile` and membership need.
theorem unmarked_iff {text : List Char} :
    Unmarked text ↔ ∀ c ∈ text, (c != '?' && c != '#') = true := by
  constructor
  · intro h c hc
    rw [Bool.and_eq_true, bne_iff_ne, bne_iff_ne]
    exact ⟨fun heq => h.1 (heq ▸ hc), fun heq => h.2 (heq ▸ hc)⟩
  · intro h
    refine ⟨fun hquery => ?_, fun hfragment => ?_⟩
    · cases h _ hquery
    · cases h _ hfragment

theorem beforeQuery_length_le (address : List Char) :
    (beforeQuery address).length ≤ address.length :=
  (List.takeWhile_prefix _).length_le

theorem beforeQuery_eq_self_iff {address : List Char} :
    beforeQuery address = address ↔ Unmarked address := by
  rw [unmarked_iff]
  exact List.takeWhile_eq_self_iff

theorem beforeQuery_append {text : List Char} (h : Unmarked text) (rest : List Char) :
    beforeQuery (text ++ rest) = text ++ beforeQuery rest :=
  List.takeWhile_append_of_pos (unmarked_iff.mp h)

/-- What is left of an address once the client has cut it and the server has read it. -/
def received (address : List Char) : List Char := unquote (beforeQuery address)

/-- An address that nothing is done to is received as it is. -/
theorem received_of_untouched {address : List Char} (hunmarked : Unmarked address)
    (hunescaped : hasEscape address = false) : received address = address := by
  unfold received
  rw [beforeQuery_eq_self_iff.mpr hunmarked, unquote_eq_self_iff.mpr hunescaped]

/-- **An address that comes through at its full length was not touched on its way.** -/
theorem untouched_of_length {address : List Char}
    (h : address.length ≤ (received address).length) :
    Unmarked address ∧ hasEscape address = false := by
  have hread := unquote_length_le (beforeQuery address)
  have hcut : beforeQuery address = address :=
    (List.takeWhile_prefix _).eq_of_length
      (Nat.le_antisymm (beforeQuery_length_le _) (Nat.le_trans h hread))
  refine ⟨beforeQuery_eq_self_iff.mp hcut, ?_⟩
  cases hescape : hasEscape address with
  | false => rfl
  | true =>
    have hlt := unquote_length_lt hescape
    unfold received at h
    rw [hcut] at h
    omega

/-! ## Segments -/

/-- The segments of a path; the first is empty where the path begins with a slash. -/
def segments (path : List Char) : List (List Char) := path.splitOn '/'

/-- The path that has these segments. -/
def joined (parts : List (List Char)) : List Char := ['/'].intercalate parts

theorem joined_segments (path : List Char) : joined (segments path) = path :=
  List.intercalate_splitOn '/'

theorem segments_joined {parts : List (List Char)} (h : ∀ s ∈ parts, '/' ∉ s) (hne : parts ≠ []) :
    segments (joined parts) = parts :=
  List.splitOn_intercalate '/' h hne

theorem joined_singleton (s : List Char) : joined [s] = s := List.intercalate_singleton

theorem joined_cons {s : List Char} {parts : List (List Char)} (hne : parts ≠ []) :
    joined (s :: parts) = s ++ '/' :: joined parts := by
  unfold joined
  rw [List.intercalate_cons_of_ne_nil hne, List.append_assoc]
  rfl

/-- A segment has no slash in it. -/
theorem slash_not_mem_segment {path s : List Char} (h : s ∈ segments path) : '/' ∉ s := by
  unfold segments at h
  induction path generalizing s with
  | nil =>
    rw [List.splitOn_nil, List.mem_singleton] at h
    rw [h]
    exact List.not_mem_nil
  | cons c rest ih =>
    obtain ⟨first, others, hrest⟩ := List.exists_cons_of_ne_nil (List.splitOn_ne_nil '/' rest)
    rw [hrest] at ih
    rw [List.splitOn_cons_eq_if_modifyHead, hrest] at h
    by_cases hc : c = '/'
    · rw [if_pos (beq_iff_eq.mpr hc)] at h
      rcases List.mem_cons.mp h with hs | hs
      · rw [hs]
        exact List.not_mem_nil
      · exact ih hs
    · rw [if_neg (fun heq => hc (beq_iff_eq.mp heq)), List.modifyHead_cons] at h
      rcases List.mem_cons.mp h with hs | hs
      · rw [hs]
        intro hmem
        rcases List.mem_cons.mp hmem with hslash | hmem
        · exact hc hslash.symm
        · exact ih List.mem_cons_self hmem
      · exact ih (List.mem_cons_of_mem _ hs)

-- The characters of a path are those of its segments, and slashes.
theorem mem_joined {parts : List (List Char)} {c : Char} (h : c ∈ joined parts) :
    c = '/' ∨ ∃ s ∈ parts, c ∈ s := by
  induction parts with
  | nil => exact absurd h List.not_mem_nil
  | cons s rest ih =>
    by_cases hne : rest = []
    · rw [hne, joined_singleton] at h
      exact Or.inr ⟨s, List.mem_cons_self, h⟩
    · rw [joined_cons hne, List.mem_append, List.mem_cons] at h
      rcases h with hs | hslash | hrest
      · exact Or.inr ⟨s, List.mem_cons_self, hs⟩
      · exact Or.inl hslash
      · rcases ih hrest with hslash | ⟨s', hs', hc⟩
        · exact Or.inl hslash
        · exact Or.inr ⟨s', List.mem_cons_of_mem _ hs', hc⟩

theorem mem_joined_of_mem {parts : List (List Char)} {s : List Char} {c : Char} (hs : s ∈ parts)
    (hc : c ∈ s) : c ∈ joined parts := by
  induction parts with
  | nil => exact absurd hs List.not_mem_nil
  | cons s' rest ih =>
    by_cases hne : rest = []
    · rw [hne, List.mem_singleton] at hs
      rw [hne, joined_singleton, ← hs]
      exact hc
    · rw [joined_cons hne, List.mem_append, List.mem_cons]
      rcases List.mem_cons.mp hs with hs | hs
      · rw [← hs]
        exact Or.inl hc
      · exact Or.inr (Or.inr (ih hs))

/-! A slash is no part of an escape, so each escape of a path lies within one segment. -/

theorem escaped_slash (high low : Char) : escaped '/' high low = none := rfl

theorem escaped_slash_high (c low : Char) : escaped c '/' low = none := by
  unfold escaped
  split
  · rfl
  · rfl

theorem escaped_slash_low (c high : Char) : escaped c high '/' = none := by
  unfold escaped
  split
  · cases hexValue high with
    | none => rfl
    | some value => rfl
  · rfl

theorem hasEscape_slash (rest : List Char) : hasEscape ('/' :: rest) = hasEscape rest := by
  cases rest with
  | nil => rfl
  | cons high rest =>
    cases rest with
    | nil => rfl
    | cons low rest => rw [hasEscape, escaped_slash, Option.isSome_none, Bool.false_or]

theorem hasEscape_append_slash (s rest : List Char) :
    hasEscape (s ++ '/' :: rest) = (hasEscape s || hasEscape rest) := by
  have hone : ∀ c, hasEscape (c :: '/' :: rest) = hasEscape rest := by
    intro c
    cases rest with
    | nil => rfl
    | cons low rest =>
      rw [hasEscape, escaped_slash_high, Option.isSome_none, Bool.false_or, hasEscape_slash]
  induction s using hasEscape.induct with
  | case1 c high low s ih =>
    have ih : hasEscape (high :: low :: (s ++ '/' :: rest)) =
        (hasEscape (high :: low :: s) || hasEscape rest) := ih
    show hasEscape (c :: high :: low :: (s ++ '/' :: rest)) = _
    rw [hasEscape, ih, hasEscape, Bool.or_assoc]
  | case2 short hshort =>
    match short with
    | [] => exact hasEscape_slash rest
    | [c] => exact hone c
    | [c, high] =>
      show hasEscape (c :: high :: '/' :: rest) = _
      rw [hasEscape, escaped_slash_low, Option.isSome_none, Bool.false_or, hone high]
      rfl
    | c :: high :: low :: s => exact absurd rfl (hshort c high low s)

/-- A path has an escape if a segment has one. -/
theorem hasEscape_joined (parts : List (List Char)) :
    hasEscape (joined parts) = parts.any hasEscape := by
  induction parts with
  | nil => rfl
  | cons s rest ih =>
    by_cases hne : rest = []
    · rw [hne, joined_singleton, List.any_cons, List.any_nil, Bool.or_false]
    · rw [joined_cons hne, hasEscape_append_slash, ih, List.any_cons]

/-! ## Templates -/

/-- A part of a route's template: a text that the segment must be, or `{name}`, which takes any
segment that is not empty. -/
inductive Part where
  | literal (text : List Char)
  | param
deriving DecidableEq, Repr

/-- The segments that the parameters take. -/
def captures : List Part → List (List Char) → Option (List (List Char))
  | [], [] => some []
  | [], _ :: _ => none
  | _ :: _, [] => none
  | .literal text :: template, s :: path => if s = text then captures template path else none
  | .param :: template, s :: path =>
    if s = [] then none else (captures template path).map fun values => s :: values

/-- The template with values for its parameters. -/
def fill : List Part → List (List Char) → List (List Char)
  | [], _ => []
  | .literal text :: template, values => text :: fill template values
  | .param :: template, values => values.headD [] :: fill template values.tail

/-- How many values a template takes. -/
def arity (template : List Part) : Nat := template.count .param

@[simp] theorem arity_literal (text : List Char) (template : List Part) :
    arity (.literal text :: template) = arity template :=
  List.count_cons_of_ne Part.noConfusion

@[simp] theorem arity_param (template : List Part) :
    arity (.param :: template) = arity template + 1 :=
  List.count_cons_self

theorem fill_ne_nil {template : List Part} (h : template ≠ []) (values : List (List Char)) :
    fill template values ≠ [] := by
  cases template with
  | nil => exact absurd rfl h
  | cons part template =>
    cases part with
    | literal text => exact List.cons_ne_nil _ _
    | param => exact List.cons_ne_nil _ _

/-- **Matching is the inverse of filling in**, on values that are not empty. -/
theorem captures_eq_some_iff {template : List Part} {path values : List (List Char)} :
    captures template path = some values ↔
      path = fill template values ∧ values.length = arity template ∧ ∀ v ∈ values, v ≠ [] := by
  -- The induction is on the template, which says at each segment what may stand there.
  induction template generalizing path values with
  | nil =>
    cases path with
    | nil =>
      show some [] = some values ↔ [] = [] ∧ values.length = 0 ∧ _
      rw [Option.some.injEq, List.length_eq_zero_iff]
      constructor
      · intro h
        rw [← h]
        exact ⟨rfl, rfl, nofun⟩
      · intro h
        exact h.2.1.symm
    | cons s path => exact ⟨nofun, fun h => nomatch h.1⟩
  | cons part template ih =>
    cases part with
    | literal text =>
      rw [arity_literal]
      cases path with
      | nil => exact ⟨nofun, fun h => nomatch h.1⟩
      | cons s path =>
        show (if s = text then captures template path else none) = some values ↔
          s :: path = text :: fill template values ∧ _
        rw [List.cons.injEq]
        split
        · rename_i hs
          rw [ih]
          exact ⟨fun h => ⟨⟨hs, h.1⟩, h.2⟩, fun h => ⟨h.1.2, h.2⟩⟩
        · rename_i hs
          exact ⟨nofun, fun h => absurd h.1.1 hs⟩
    | param =>
      rw [arity_param]
      cases path with
      | nil => exact ⟨nofun, fun h => nomatch h.1⟩
      | cons s path =>
        show (if s = [] then none else (captures template path).map fun values => s :: values) =
          some values ↔ s :: path = values.headD [] :: fill template values.tail ∧ _
        split
        · -- An empty segment is no value, so nothing that fills the template has one here.
          rename_i hs
          refine ⟨nofun, fun h => ?_⟩
          cases values with
          | nil => cases h.2.1
          | cons v values =>
            have hv : s = v := (List.cons.inj h.1).1
            exact absurd (hv ▸ hs) (h.2.2 v List.mem_cons_self)
        · rename_i hs
          rw [Option.map_eq_some_iff]
          constructor
          · intro h
            obtain ⟨values', hvalues', heq⟩ := h
            obtain ⟨hpath, hlength, hne⟩ := ih.mp hvalues'
            rw [← heq]
            exact ⟨congrArg _ hpath, congrArg _ hlength, List.forall_mem_cons.mpr ⟨hs, hne⟩⟩
          · intro h
            obtain ⟨hpath, hlength, hne⟩ := h
            cases values with
            | nil => cases hlength
            | cons v values =>
              obtain ⟨hv, hpath⟩ := List.cons.inj hpath
              refine ⟨values, ih.mpr ⟨hpath, Nat.succ.inj hlength, ?_⟩, ?_⟩
              · exact (List.forall_mem_cons.mp hne).2
              · show s :: values = v :: values
                rw [show s = v from hv]

-- What stands in a filled template is a literal of it or a value.
theorem mem_fill {template : List Part} {values : List (List Char)} {s : List Char}
    (hlength : values.length = arity template) (h : s ∈ fill template values) :
    .literal s ∈ template ∨ s ∈ values := by
  induction template generalizing values with
  | nil => exact absurd h List.not_mem_nil
  | cons part template ih =>
    cases part with
    | literal text =>
      rw [arity_literal] at hlength
      rcases List.mem_cons.mp h with hs | hs
      · rw [hs]
        exact Or.inl List.mem_cons_self
      · rcases ih hlength hs with hliteral | hvalue
        · exact Or.inl (List.mem_cons_of_mem _ hliteral)
        · exact Or.inr hvalue
    | param =>
      rw [arity_param] at hlength
      cases values with
      | nil => cases hlength
      | cons v values =>
        rcases List.mem_cons.mp h with hs | hs
        · rw [hs]
          exact Or.inr List.mem_cons_self
        · rcases ih (Nat.succ.inj hlength) hs with hliteral | hvalue
          · exact Or.inl (List.mem_cons_of_mem _ hliteral)
          · exact Or.inr (List.mem_cons_of_mem _ hvalue)

theorem mem_fill_of_mem {template : List Part} {values : List (List Char)} {v : List Char}
    (hlength : values.length = arity template) (h : v ∈ values) : v ∈ fill template values := by
  induction template generalizing values with
  | nil =>
    rw [List.length_eq_zero_iff.mp hlength] at h
    exact absurd h List.not_mem_nil
  | cons part template ih =>
    cases part with
    | literal text =>
      rw [arity_literal] at hlength
      exact List.mem_cons_of_mem _ (ih hlength h)
    | param =>
      rw [arity_param] at hlength
      cases values with
      | nil => exact absurd h List.not_mem_nil
      | cons v' values =>
        rcases List.mem_cons.mp h with hv | hv
        · rw [hv]
          exact List.mem_cons_self
        · exact List.mem_cons_of_mem _ (ih (Nat.succ.inj hlength) hv)

/-- Text that is read as it is written, within one segment. -/
structure Verbatim (text : List Char) : Prop where
  oneSegment : '/' ∉ text
  unmarked : Unmarked text
  unescaped : hasEscape text = false

instance (text : List Char) : Decidable (Verbatim text) :=
  decidable_of_iff ('/' ∉ text ∧ Unmarked text ∧ hasEscape text = false)
    ⟨fun h => ⟨h.1, h.2.1, h.2.2⟩, fun h => ⟨h.oneSegment, h.unmarked, h.unescaped⟩⟩

/-- A path all of whose segments are read as they are written is received as it is. -/
theorem received_joined {parts : List (List Char)} (h : ∀ s ∈ parts, Verbatim s) :
    received (joined parts) = joined parts := by
  refine received_of_untouched ⟨fun hquery => ?_, fun hfragment => ?_⟩ ?_
  · rcases mem_joined hquery with hslash | ⟨s, hs, hc⟩
    · cases hslash
    · exact (h s hs).unmarked.1 hc
  · rcases mem_joined hfragment with hslash | ⟨s, hs, hc⟩
    · cases hslash
    · exact (h s hs).unmarked.2 hc
  · rw [hasEscape_joined, List.any_eq_false]
    intro s hs hescape
    rw [(h s hs).unescaped] at hescape
    cases hescape

/-- What a template's parameters take of an address that a client sends. -/
def routed (template : List Part) (address : List Char) : Option (List (List Char)) :=
  captures template (segments (received address))

/-- What has been received is the template with what its parameters have taken. -/
theorem received_of_routed {template : List Part} {address : List Char} {values : List (List Char)}
    (h : routed template address = some values) :
    received address = joined (fill template values) := by
  rw [← (captures_eq_some_iff.mp h).1, joined_segments]

/-- **Main theorem.** Of the address that is pasted together from a template and some values, the
template gets back exactly these values if and only if none of them is empty and each is read as it
is written. -/
theorem captures_address {template : List Part} {values : List (List Char)}
    (hne : template ≠ []) (hliterals : ∀ text, .literal text ∈ template → Verbatim text)
    (hlength : values.length = arity template) :
    routed template (joined (fill template values)) = some values ↔
      ∀ v ∈ values, v ≠ [] ∧ Verbatim v := by
  constructor
  · intro h v hv
    obtain ⟨hsegments, -, hfull⟩ := captures_eq_some_iff.mp h
    have hmem := mem_fill_of_mem hlength hv
    -- What has been received is the address as written, so it has come through untouched.
    obtain ⟨hunmarked, hunescaped⟩ :=
      untouched_of_length (Nat.le_of_eq (congrArg _ (received_of_routed h)).symm)
    rw [hasEscape_joined, List.any_eq_false] at hunescaped
    refine ⟨hfull v hv, ?_, ⟨fun hc => ?_, fun hc => ?_⟩, ?_⟩
    · rw [← hsegments] at hmem
      exact slash_not_mem_segment hmem
    · exact hunmarked.1 (mem_joined_of_mem hmem hc)
    · exact hunmarked.2 (mem_joined_of_mem hmem hc)
    · exact Bool.eq_false_iff.mpr (hunescaped v hmem)
  · intro h
    have hparts : ∀ s ∈ fill template values, Verbatim s := by
      intro s hs
      rcases mem_fill hlength hs with hliteral | hvalue
      · exact hliterals s hliteral
      · exact (h s hvalue).2
    refine captures_eq_some_iff.mpr ⟨?_, hlength, fun v hv => (h v hv).1⟩
    rw [received_joined hparts]
    exact segments_joined (fun s hs => (hparts s hs).oneSegment) (fill_ne_nil hne values)

/-! ## Absolute addresses -/

/-- What precedes the path of an absolute address. -/
structure Origin where
  scheme : List Char
  authority : List Char
  scheme_plain : ':' ∉ scheme ∧ Unmarked scheme
  authority_plain : '/' ∉ authority ∧ Unmarked authority

/-- The origin as it is written. -/
def Origin.text (o : Origin) : List Char := o.scheme ++ ':' :: '/' :: '/' :: o.authority

/-- What follows the scheme and its two slashes. -/
def afterScheme : List Char → List Char
  | [] => []
  | c :: rest => if c = ':' then rest.drop 2 else afterScheme rest

/-- The path that a server is asked for. -/
def requested (url : List Char) : List Char :=
  unquote ((afterScheme (beforeQuery url)).dropWhile fun c => c != '/')

theorem afterScheme_append {scheme : List Char} (h : ':' ∉ scheme) (rest : List Char) :
    afterScheme (scheme ++ ':' :: '/' :: '/' :: rest) = rest := by
  induction scheme with
  | nil => rfl
  | cons c scheme ih =>
    rw [List.mem_cons, not_or] at h
    show (if c = ':' then _ else afterScheme (scheme ++ ':' :: '/' :: '/' :: rest)) = rest
    rw [if_neg (Ne.symm h.1), ih h.2]

/-- Of an absolute address the server is asked for what follows the origin. -/
theorem requested_origin (o : Origin) (rest : List Char) :
    requested (o.text ++ '/' :: rest) = received ('/' :: rest) := by
  have hunmarked : Unmarked o.text := by
    refine unmarked_append.mpr ⟨o.scheme_plain.2, ?_⟩
    exact unmarked_append.mpr (⟨by decide, o.authority_plain.2⟩ : Unmarked [':', '/', '/'] ∧ _)
  have hauthority : ∀ c ∈ o.authority, (c != '/') = true := by
    intro c hc
    rw [bne_iff_ne]
    intro heq
    exact o.authority_plain.1 (heq ▸ hc)
  have htext : o.text ++ beforeQuery ('/' :: rest) =
      o.scheme ++ ':' :: '/' :: '/' :: (o.authority ++ beforeQuery ('/' :: rest)) :=
    List.append_assoc _ _ _
  unfold requested received
  rw [beforeQuery_append hunmarked, htext, afterScheme_append o.scheme_plain.1,
    List.dropWhile_append_of_pos hauthority]
  rfl

/-! ## Routes -/

/-- A route: under a method, a template leads to an endpoint. -/
structure Route (μ ε : Type) where
  method : μ
  template : List Part
  endpoint : ε

/-- Where a request goes. A path that is only known under other methods is not allowed under this
one. -/
inductive Destination (ε : Type) where
  | endpoint (endpoint : ε) (values : List (List Char))
  | notAllowed
  | notFound

variable {μ ε : Type} [DecidableEq μ]

/-- The first route that has the method and takes the path. -/
def dispatch (method : μ) (path : List (List Char)) : List (Route μ ε) → Destination ε
  | [] => .notFound
  | route :: rest =>
    match captures route.template path with
    | none => dispatch method path rest
    | some values =>
      if route.method = method then .endpoint route.endpoint values
      else match dispatch method path rest with
        | .notFound => .notAllowed
        | destination => destination

/-- A request that arrives at an endpoint has come by one of its routes. -/
theorem route_of_dispatch {method : μ} {path values : List (List Char)} {endpoint : ε}
    {routes : List (Route μ ε)} (h : dispatch method path routes = .endpoint endpoint values) :
    ∃ route ∈ routes, route.method = method ∧ route.endpoint = endpoint ∧
      captures route.template path = some values := by
  induction routes with
  | nil => cases h
  | cons route rest ih =>
    unfold dispatch at h
    have hlater : dispatch method path rest = .endpoint endpoint values →
        ∃ route' ∈ route :: rest, route'.method = method ∧ route'.endpoint = endpoint ∧
          captures route'.template path = some values := by
      intro hrest
      obtain ⟨route', hmem, hroute'⟩ := ih hrest
      exact ⟨route', List.mem_cons_of_mem _ hmem, hroute'⟩
    cases hcaptures : captures route.template path with
    | none =>
      rw [hcaptures] at h
      exact hlater h
    | some found =>
      rw [hcaptures] at h
      dsimp only at h
      split at h
      · rename_i hmethod
        cases h
        exact ⟨route, List.mem_cons_self, hmethod, rfl, hcaptures⟩
      · refine hlater ?_
        cases hrest : dispatch method path rest with
        | endpoint endpoint' values' =>
          rw [hrest] at h
          exact h
        | notAllowed =>
          rw [hrest] at h
          cases h
        | notFound =>
          rw [hrest] at h
          cases h

/-- The first route with the method that takes the path is the one that is chosen. -/
theorem dispatch_of_captures {method : μ} {path values : List (List Char)}
    (before : List (Route μ ε)) {after : List (Route μ ε)} {route : Route μ ε}
    (hbefore : ∀ r ∈ before, r.method ≠ method) (hmethod : route.method = method)
    (h : captures route.template path = some values) :
    dispatch method path (before ++ route :: after) = .endpoint route.endpoint values := by
  induction before with
  | nil =>
    show dispatch method path (route :: after) = _
    rw [dispatch, h]
    exact if_pos hmethod
  | cons r rest ih =>
    have hrest := ih fun r hr => hbefore r (List.mem_cons_of_mem _ hr)
    show dispatch method path (r :: (rest ++ route :: after)) = _
    rw [dispatch, hrest]
    cases captures r.template path with
    | none => rfl
    | some found => exact if_neg (hbefore r List.mem_cons_self)

end Url
