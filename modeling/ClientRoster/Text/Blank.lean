import ClientRoster.Text.Ranges

/-!
# `ClientRoster.Text.Blank` — white space at the ends of a text

The blank characters are the twenty-five code points with the property `White_Space`. A zero-width space, a byte
order mark and the separators below the space are not among them.
-/

namespace ClientRoster.Text

/-- The code points with the property `White_Space`. -/
def blankRanges : List (Nat × Nat) := [
  (0x9, 0xd), (0x20, 0x20), (0x85, 0x85), (0xa0, 0xa0), (0x1680, 0x1680), (0x2000, 0x200a), (0x2028, 0x2029),
  (0x202f, 0x202f), (0x205f, 0x205f), (0x3000, 0x3000)]

/-- Is the character white space? -/
def isBlank (c : Char) : Bool := inRanges blankRanges c.toNat

/-- The text without blank characters at its end. -/
def trimEnd : List Char → List Char
  | [] => []
  | c :: rest => match trimEnd rest with
    | [] => if isBlank c then [] else [c]
    | kept => c :: kept

/-- The text without blank characters at its ends. -/
def trim (text : List Char) : List Char := trimEnd (text.dropWhile isBlank)

/-- A text that ends in a character of its own is not cut. -/
theorem trimEnd_append_singleton (text : List Char) {c : Char} (h : isBlank c = false) :
    trimEnd (text ++ [c]) = text ++ [c] := by
  induction text with
  | nil => simp [trimEnd, h]
  | cons d rest ih =>
    rw [List.cons_append, trimEnd, ih]
    cases rest <;> rfl

/-- A text with a character of its own at each end is not cut. -/
theorem trim_of_ends {c d : Char} (text : List Char) (hc : isBlank c = false) (hd : isBlank d = false) :
    trim (c :: (text ++ [d])) = c :: (text ++ [d]) := by
  have hdrop : (c :: (text ++ [d])).dropWhile isBlank = c :: (text ++ [d]) := by
    simp [hc]
  rw [trim, hdrop]
  exact trimEnd_append_singleton (c :: text) hd

end ClientRoster.Text
