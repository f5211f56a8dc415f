import ClientRoster.Json.Literal
import ClientRoster.Json.Numeral

/-!
# `ClientRoster.Json.Token` — the words of a document

A text is cut into tokens from the left. The cut is total: where no token can be made, a broken one takes its
place and is the last.
-/

namespace ClientRoster.Json

/-- A word of a document. -/
inductive Token
  | comma
  | colon
  | openArray
  | closeArray
  | openObject
  | closeObject
  | null
  | bool (value : Bool)
  | numeral (n : Numeral)
  | literal (l : Literal)
  /-- A literal begins here, and its end is not found. -/
  | openLiteral (fault : Fault)
  /-- No token begins here. -/
  | broken (fault : Fault)
  deriving DecidableEq, Repr

/-- May the character stand between tokens? -/
def isSpace (c : Char) : Bool := c = ' ' || c = '\n' || c = '\t' || c = '\r'

/-- What follows a keyword of which these letters are still to come. -/
def afterKeyword : List Char → List Char → Except Flaw (List Char)
  | [], text => .ok text
  | _ :: _, [] => .error .ended
  | k :: keyword, c :: text => if k = c then afterKeyword keyword text else .error .malformed

/-- A keyword token, if its letters follow. -/
def keywordToken (token : Token) (keyword text : List Char) : Token × List Char :=
  match afterKeyword keyword text with
  | .ok rest => (token, rest)
  | .error flaw => (.broken (.both flaw), [])

/-- A numeral token, from behind its sign. -/
def numeralToken (negative : Bool) (text : List Char) : Token × List Char :=
  match scanNumeral negative text with
  | .ok (n, rest) => (.numeral n, rest)
  | .error fault => (.broken fault, [])

/-- A literal token, from behind its opening quote. -/
def literalToken (text : List Char) : Token × List Char :=
  match readLiteral text with
  | (.ok l, rest) => (.literal l, rest)
  | (.error fault, rest) => (.openLiteral fault, rest)

/-- The token that begins with `c`, which is no space, and what follows it. -/
def nextToken (c : Char) (text : List Char) : Token × List Char :=
  match c with
  | ',' => (.comma, text)
  | ':' => (.colon, text)
  | '[' => (.openArray, text)
  | ']' => (.closeArray, text)
  | '{' => (.openObject, text)
  | '}' => (.closeObject, text)
  | '"' => literalToken text
  | 'n' => keywordToken .null ['u', 'l', 'l'] text
  | 't' => keywordToken (.bool true) ['r', 'u', 'e'] text
  | 'f' => keywordToken (.bool false) ['a', 'l', 's', 'e'] text
  | '-' => numeralToken true text
  | c => if c.isDigit then numeralToken false (c :: text) else (.broken .malformed, [])

/-! ## Each token takes at least one character -/

theorem length_scanPieces_le (text : List Char) : (scanPieces text).rest.length ≤ text.length := by
  fun_induction scanPieces text <;> simp_all [Scanned.stop, Scanned.done, Scanned.push] <;> omega

theorem length_literalToken_le (text : List Char) : (literalToken text).2.length ≤ text.length := by
  have h := length_scanPieces_le text
  unfold literalToken readLiteral
  cases hf : (scanPieces text).flaw with
  | some flaw => simpa [hf] using h
  | none => cases hj : joinPieces? (scanPieces text).pieces <;> simpa [hf, hj] using h

theorem length_afterKeyword_le {keyword text rest : List Char} (h : afterKeyword keyword text = .ok rest) :
    rest.length ≤ text.length := by
  fun_induction afterKeyword keyword text <;> grind

theorem length_keywordToken_le (token : Token) (keyword text : List Char) :
    (keywordToken token keyword text).2.length ≤ text.length := by
  unfold keywordToken
  split
  · next h => exact length_afterKeyword_le h
  · simp

/-- Reading digits leaves a shorter text, unless there are none. -/
theorem length_spanDigits_lt {text digits rest : List Char} (h : spanDigits text = (digits, rest))
    (hne : digits ≠ []) : rest.length < text.length := by
  unfold spanDigits at h
  simp only [Prod.mk.injEq] at h
  obtain ⟨rfl, rfl⟩ := h
  have hlen : (text.takeWhile Char.isDigit).length + (text.dropWhile Char.isDigit).length = text.length := by
    rw [← List.length_append, List.takeWhile_append_dropWhile]
  have hpos := List.length_pos_iff.mpr hne
  omega

theorem length_scanWhole_lt {text digits rest : List Char} (h : scanWhole text = .ok (digits, rest)) :
    rest.length < text.length := by
  unfold scanWhole at h
  split at h
  · cases h
  · cases h
  · next hne _ hspan =>
    cases h
    exact length_spanDigits_lt hspan hne

theorem length_scanFraction_le {text digits rest : List Char} (h : scanFraction text = .ok (digits, rest)) :
    rest.length ≤ text.length := by
  unfold scanFraction at h
  split at h
  · next text =>
    split at h
    · cases h
    · next hne hspan =>
      cases h
      have := length_spanDigits_lt hspan hne
      simp only [List.length_cons]
      omega
  · cases h
    exact Nat.le_refl _

theorem length_scanSign_le (text : List Char) : (scanSign text).2.length ≤ text.length := by
  unfold scanSign
  split <;> simp

theorem length_scanExponent_le {text rest : List Char} {e : Option (Bool × List Char)}
    (h : scanExponent text = .ok (e, rest)) : rest.length ≤ text.length := by
  cases text with
  | nil =>
    cases h
    exact Nat.le_refl _
  | cons c text =>
    have hsign := length_scanSign_le text
    simp only [scanExponent] at h
    by_cases hc : c = 'e' ∨ c = 'E'
    · rw [if_pos hc] at h
      cases hs : scanSign text with
      | mk negative digits =>
        simp only [hs] at h hsign
        split at h
        · cases h
        · next hne hspan =>
          cases h
          have := length_spanDigits_lt hspan hne
          simp only [List.length_cons]
          omega
    · rw [if_neg hc] at h
      cases h
      exact Nat.le_refl _

theorem length_scanNumeral_lt {negative : Bool} {text rest : List Char} {n : Numeral}
    (h : scanNumeral negative text = .ok (n, rest)) : rest.length < text.length := by
  unfold scanNumeral at h
  cases hw : scanWhole text with
  | error fault => rw [hw] at h; cases h
  | ok whole =>
    obtain ⟨whole, text₁⟩ := whole
    rw [hw] at h
    cases hf : scanFraction text₁ with
    | error fault =>
      simp only [bind, Except.bind, hf] at h
      cases h
    | ok fraction =>
      obtain ⟨fraction, text₂⟩ := fraction
      cases he : scanExponent text₂ with
      | error fault =>
        simp only [bind, Except.bind, hf, he] at h
        cases h
      | ok exponent =>
        obtain ⟨exponent, text₃⟩ := exponent
        simp only [bind, Except.bind, hf, he] at h
        cases h
        have h₁ := length_scanWhole_lt hw
        have h₂ := length_scanFraction_le hf
        have h₃ := length_scanExponent_le he
        omega

theorem length_numeralToken_lt (negative : Bool) {text : List Char} (h : text ≠ []) :
    (numeralToken negative text).2.length < text.length := by
  unfold numeralToken
  split
  · next hscan => exact length_scanNumeral_lt hscan
  · exact List.length_pos_iff.mpr h

theorem length_numeralToken_le (negative : Bool) (text : List Char) :
    (numeralToken negative text).2.length ≤ text.length := by
  cases text with
  | nil => simp [numeralToken, scanNumeral, scanWhole, spanDigits, bind, Except.bind]
  | cons c text => exact Nat.le_of_lt (length_numeralToken_lt negative (by simp))

theorem length_nextToken_le (c : Char) (text : List Char) : (nextToken c text).2.length ≤ text.length := by
  have hnumeral := length_numeralToken_lt false (List.cons_ne_nil c text)
  rw [List.length_cons] at hnumeral
  unfold nextToken
  split
  case h_1 | h_2 | h_3 | h_4 | h_5 | h_6 => exact Nat.le_refl _
  case h_7 => exact length_literalToken_le text
  case h_8 | h_9 | h_10 => exact length_keywordToken_le _ _ text
  case h_11 => exact length_numeralToken_le true text
  case h_12 =>
    by_cases hd : c.isDigit
    · rw [if_pos hd]
      exact Nat.le_of_lt_succ hnumeral
    · rw [if_neg hd]
      exact Nat.zero_le _

/-! ## The tokens of a text -/

/-- The tokens of a text, from the left, up to the first that is broken. -/
def tokens : List Char → List Token
  | [] => []
  | c :: text =>
    if isSpace c then tokens text
    else
      let next := nextToken c text
      next.1 :: tokens next.2
termination_by text => text.length
decreasing_by
  · simp
  · have := length_nextToken_le c text
    simp only [List.length_cons]
    omega

@[simp] theorem tokens_nil : tokens [] = [] := by
  rw [tokens]

theorem tokens_cons_of_space {c : Char} (text : List Char) (h : isSpace c = true) :
    tokens (c :: text) = tokens text := by
  rw [tokens, if_pos h]

theorem tokens_cons {c : Char} (text : List Char) (h : isSpace c = false) :
    tokens (c :: text) = (nextToken c text).1 :: tokens (nextToken c text).2 := by
  rw [tokens, if_neg (by simp [h])]

end ClientRoster.Json
