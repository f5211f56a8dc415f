/-!
# `ClientRoster.Text.Fields` — separated fields and plain numbers

Small readers and writers over lists of characters, shared by the address formats.

## Contents
- `fields` cuts a text at each separator, `joined` puts the pieces together again (`joined_fields`).
- `digitValue?` and `natOfDigits?`: a number from digits of a base, of any case, with nothing else between them.
-/

namespace ClientRoster.Text

/-! ## Fields -/

/-- The pieces between the occurrences of `sep`; a text without one is a single piece. -/
def fields (sep : Char) : List Char → List (List Char)
  | [] => [[]]
  | c :: rest =>
    if c = sep then [] :: fields sep rest
    else match fields sep rest with
      | [] => [[c]]
      | piece :: pieces => (c :: piece) :: pieces

/-- The pieces with `sep` between each two. -/
def joined (sep : Char) : List (List Char) → List Char
  | [] => []
  | [piece] => piece
  | piece :: next :: pieces => piece ++ sep :: joined sep (next :: pieces)

theorem fields_ne_nil (sep : Char) (text : List Char) : fields sep text ≠ [] := by
  cases text with
  | nil => simp [fields]
  | cons c rest =>
    unfold fields
    split
    · simp
    · split <;> simp

/-- Cutting a text loses nothing but the separators. -/
theorem joined_fields (sep : Char) (text : List Char) : joined sep (fields sep text) = text := by
  induction text with
  | nil => rfl
  | cons c rest ih =>
    unfold fields
    cases h : fields sep rest with
    | nil => exact absurd h (fields_ne_nil sep rest)
    | cons piece pieces =>
      rw [h] at ih
      by_cases hc : c = sep
      · subst hc
        rw [if_pos rfl]
        simp only [joined, List.nil_append, ih]
      · rw [if_neg hc]
        cases pieces with
        | nil => simpa [joined] using ih
        | cons next more => simpa [joined] using ih

/-! ## Numbers -/

/-- The value of a digit below `base`; letters of both cases stand for ten and above. -/
def digitValue? (base : Nat) (c : Char) : Option Nat :=
  let value :=
    if '0' ≤ c ∧ c ≤ '9' then c.toNat - '0'.toNat
    else if 'a' ≤ c ∧ c ≤ 'z' then c.toNat - 'a'.toNat + 10
    else if 'A' ≤ c ∧ c ≤ 'Z' then c.toNat - 'A'.toNat + 10
    else base
  if value < base then some value else none

/-- The number that digits of `base` write, continuing from `high`, the value of the digits before them. -/
def natFrom? (base : Nat) (high : Nat) : List Char → Option Nat
  | [] => some high
  | c :: rest => do
    let d ← digitValue? base c
    natFrom? base (high * base + d) rest

/-- The number that a non-empty list of digits of `base` writes. -/
def natOfDigits? (base : Nat) : List Char → Option Nat
  | [] => none
  | digits => natFrom? base 0 digits

end ClientRoster.Text
