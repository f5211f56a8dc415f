import ClientRoster.Json.Token
import ClientRoster.Proofs.Json.Tokens

/-!
# `ClientRoster.Proofs.Json.Cut` — the tokens of a text cover it

The converse of the cut into words: where a token is cut off, one of its written forms stands, and between two tokens
there is white space only. So a text without a broken token is laid out from its tokens (`laid_tokens`).

## Contents
- `scanPieces_sound`, `readLiteral_sound`: literals.
- `scanNumeral_sound`: numerals.
- `Token.Written`, `Laid`, **`laid_tokens`**.
-/

namespace ClientRoster.Json

/-! ## Literals -/

theorem mem_of_escaped? {letter c : Char} (h : escaped? letter = some c) : (letter, c) ∈ escapeLetters := by
  unfold escaped? at h
  split at h
  · next hl =>
    obtain rfl := Option.some.inj h
    rcases hl with rfl | rfl | rfl <;> decide
  split at h
  · next hl => exact Option.some.inj h ▸ hl ▸ by decide
  split at h
  · next hl => exact Option.some.inj h ▸ hl ▸ by decide
  split at h
  · next hl => exact Option.some.inj h ▸ hl ▸ by decide
  split at h
  · next hl => exact Option.some.inj h ▸ hl ▸ by decide
  split at h
  · next hl => exact Option.some.inj h ▸ hl ▸ by decide
  · cases h

/-- Four characters that are read as a unit are a written form of its piece. -/
theorem unit_written {a b c d : Char} {unit : Nat} (h : Text.natOfDigits? 16 [a, b, c, d] = some unit) :
    (Piece.ofUnit unit).Written ['\\', 'u', a, b, c, d] := by
  obtain ⟨w, hw, h⟩ := Option.bind_eq_some_iff.mp h
  obtain ⟨x, hx, h⟩ := Option.bind_eq_some_iff.mp h
  obtain ⟨y, hy, h⟩ := Option.bind_eq_some_iff.mp h
  obtain ⟨z, hz, h⟩ := Option.bind_eq_some_iff.mp h
  obtain rfl := Option.some.inj h
  have hunit := Piece.Written.unit (digitValue?_eq_some_iff.mp hw) (digitValue?_eq_some_iff.mp hx)
    (digitValue?_eq_some_iff.mp hy) (digitValue?_eq_some_iff.mp hz)
  rwa [Nat.zero_mul, Nat.zero_add]

/-- What a scan that found the closing quote has passed over. -/
def Scanned.Covers (s : Scanned) (text : List Char) : Prop :=
  ∃ cs, text = cs ++ '"' :: s.rest ∧ PiecesWritten s.pieces cs

theorem Scanned.Covers.push {s : Scanned} {text : List Char} (h : s.Covers text) {p : Piece} {front : List Char}
    (hp : p.Written front) : (s.push p).Covers (front ++ text) := by
  obtain ⟨cs, rfl, hpieces⟩ := h
  exact ⟨front ++ cs, (List.append_assoc _ _ _).symm, .cons hp hpieces⟩

/-- A scan that finds the closing quote has passed over written pieces. -/
theorem scanPieces_sound {text : List Char} (h : (scanPieces text).flaw = none) : (scanPieces text).Covers text := by
  -- a scan that stopped has a flaw; of the others, each cuts one piece off the front
  fun_induction scanPieces text with
  | case1 | case3 | case5 | case6 | case8 | case9 => cases h
  | case2 rest => exact ⟨[], rfl, .nil⟩
  | case4 h₁ h₂ h₃ h₄ rest unit hunit _ ih => exact (ih h).push (unit_written hunit)
  | case7 letter rest hu e he _ ih => exact (ih h).push (.escape (mem_of_escaped? he))
  | case10 c rest hquote hslash hcontrol ih =>
    exact (ih h).push (.plain hquote hslash (Nat.not_lt.mp hcontrol))

/-- A literal that is read is written in the text. -/
theorem readLiteral_sound {text rest : List Char} {l : Literal} (h : readLiteral text = (.ok l, rest)) :
    ∃ cs, text = cs ++ rest ∧ l.Written ('"' :: cs) := by
  unfold readLiteral at h
  cases hflaw : (scanPieces text).flaw with
  | some flaw => simp [hflaw] at h
  | none =>
    obtain ⟨cs, htext, hpieces⟩ := scanPieces_sound hflaw
    have hshape : text = (cs ++ ['"']) ++ (scanPieces text).rest := by
      rw [List.append_assoc]
      exact htext
    cases hjoin : joinPieces? (scanPieces text).pieces with
    | some chars =>
      simp only [hflaw, hjoin, Prod.mk.injEq, Except.ok.injEq] at h
      obtain ⟨rfl, rfl⟩ := h
      exact ⟨cs ++ ['"'], hshape, .plain hpieces (joinPieces?_eq_some_iff.mp hjoin)⟩
    | none =>
      simp only [hflaw, hjoin, Prod.mk.injEq, Except.ok.injEq] at h
      obtain ⟨rfl, rfl⟩ := h
      refine ⟨cs ++ ['"'], hshape, .unpaired hpieces ?_⟩
      intro chars hspells
      rw [joinPieces?_eq_some_iff.mpr hspells] at hjoin
      cases hjoin

/-! ## Numerals -/

theorem spanDigits_sound {text digits rest : List Char} (h : spanDigits text = (digits, rest)) :
    text = digits ++ rest ∧ ∀ c ∈ digits, c.isDigit = true := by
  obtain ⟨rfl, rfl⟩ := Prod.mk.inj h
  refine ⟨List.takeWhile_append_dropWhile.symm, ?_⟩
  intro c hc
  exact List.all_eq_true.mp List.all_takeWhile c hc

theorem scanWhole_sound {text whole rest : List Char} (h : scanWhole text = .ok (whole, rest)) :
    text = whole ++ rest ∧ Digits whole ∧ (whole.head? = some '0' → whole = ['0']) := by
  unfold scanWhole at h
  split at h
  · cases h
  · cases h
  · next digits _ hne hzero hspan =>
    obtain ⟨rfl, rfl⟩ := Prod.mk.inj (Except.ok.inj h)
    obtain ⟨htext, hdigits⟩ := spanDigits_sound hspan
    refine ⟨htext, ⟨hne, hdigits⟩, ?_⟩
    intro hhead
    cases digits with
    | nil => exact (hne rfl).elim
    | cons c digits =>
      obtain rfl := Option.some.inj hhead
      cases digits with
      | nil => rfl
      | cons d digits => exact (hzero d digits rfl).elim

/-- At least one digit stands where digits are asked for. -/
theorem digits_of_spanDigits {text digits rest : List Char} (h : spanDigits text = (digits, rest)) (hne : digits ≠ []) :
    text = digits ++ rest ∧ Digits digits :=
  ⟨(spanDigits_sound h).1, hne, (spanDigits_sound h).2⟩

theorem scanFraction_sound {text fraction rest : List Char} (h : scanFraction text = .ok (fraction, rest)) :
    ∃ cs, text = cs ++ rest ∧ FractionWritten fraction cs := by
  unfold scanFraction at h
  split at h
  · split at h
    · cases h
    · next digits _ hne hspan =>
      obtain ⟨rfl, rfl⟩ := Prod.mk.inj (Except.ok.inj h)
      obtain ⟨rfl, hdigits⟩ := digits_of_spanDigits hspan hne
      exact ⟨'.' :: digits, rfl, .some hdigits⟩
  · obtain ⟨rfl, rfl⟩ := Prod.mk.inj (Except.ok.inj h)
    exact ⟨[], rfl, .none⟩

theorem scanSign_sound (text : List Char) :
    ∃ sign, text = sign ++ (scanSign text).2 ∧ SignWritten (scanSign text).1 sign := by
  unfold scanSign
  split
  · exact ⟨['+'], rfl, .plus⟩
  · exact ⟨['-'], rfl, .minus⟩
  · exact ⟨[], rfl, .nothing⟩

theorem scanExponent_sound {text rest : List Char} {exponent : Option (Bool × List Char)}
    (h : scanExponent text = .ok (exponent, rest)) : ∃ cs, text = cs ++ rest ∧ ExponentWritten exponent cs := by
  cases text with
  | nil =>
    obtain ⟨rfl, rfl⟩ := Prod.mk.inj (Except.ok.inj h)
    exact ⟨[], rfl, .none⟩
  | cons c text =>
    rw [scanExponent] at h
    split at h
    · next hletter =>
      obtain ⟨sign, htext, hsign⟩ := scanSign_sound text
      simp only at h
      split at h
      · cases h
      · next digits _ hne hspan =>
        obtain ⟨rfl, rfl⟩ := Prod.mk.inj (Except.ok.inj h)
        obtain ⟨hrest, hdigits⟩ := digits_of_spanDigits hspan hne
        refine ⟨c :: (sign ++ digits), ?_, .some hletter hsign hdigits⟩
        rw [List.cons_append, List.append_assoc, ← hrest, ← htext]
    · obtain ⟨rfl, rfl⟩ := Prod.mk.inj (Except.ok.inj h)
      exact ⟨[], rfl, .none⟩

/-- A numeral that is scanned from behind its sign is written there. -/
theorem scanNumeral_sound {negative : Bool} {text rest : List Char} {n : Numeral}
    (h : scanNumeral negative text = .ok (n, rest)) :
    ∃ cs, text = cs ++ rest ∧ n.Written ((if negative then ['-'] else []) ++ cs) := by
  obtain ⟨⟨whole, text₁⟩, hw, h⟩ := bind_eq_ok_iff.mp h
  obtain ⟨⟨fraction, text₂⟩, hf, h⟩ := bind_eq_ok_iff.mp h
  obtain ⟨⟨exponent, text₃⟩, he, h⟩ := bind_eq_ok_iff.mp h
  obtain ⟨rfl, rfl⟩ := Prod.mk.inj (Except.ok.inj h)
  obtain ⟨rfl, hwhole, hzero⟩ := scanWhole_sound hw
  obtain ⟨cs, rfl, hfraction⟩ := scanFraction_sound hf
  obtain ⟨ds, rfl, hexponent⟩ := scanExponent_sound he
  exact ⟨whole ++ (cs ++ ds), by simp, .intro hwhole hzero hfraction hexponent⟩

/-! ## Tokens -/

/-- The written forms of a token; a broken one has none. -/
inductive Token.Written : Token → List Char → Prop
  | comma : Written .comma [',']
  | colon : Written .colon [':']
  | openArray : Written .openArray ['[']
  | closeArray : Written .closeArray [']']
  | openObject : Written .openObject ['{']
  | closeObject : Written .closeObject ['}']
  | null : Written .null ['n', 'u', 'l', 'l']
  | true : Written (.bool .true) ['t', 'r', 'u', 'e']
  | false : Written (.bool .false) ['f', 'a', 'l', 's', 'e']
  | numeral {n : Numeral} {cs : List Char} (h : n.Written cs) : Written (.numeral n) cs
  | literal {l : Literal} {cs : List Char} (h : l.Written cs) : Written (.literal l) cs

/-- The token is a word of a document. -/
def Token.Whole : Token → Prop
  | .openLiteral _ | .broken _ => False
  | _ => True

theorem afterKeyword_sound {keyword text rest : List Char} (h : afterKeyword keyword text = .ok rest) :
    text = keyword ++ rest := by
  fun_induction afterKeyword keyword text with
  | case1 text =>
    obtain rfl := Except.ok.inj h
    rfl
  | case2 => cases h
  | case3 keyword c text ih => rw [List.cons_append, ← ih h]
  | case4 => cases h

/-- A keyword that is read is written in the text. -/
theorem keywordToken_sound {token : Token} {first : Char} {keyword text : List Char}
    (hwritten : token.Written (first :: keyword)) (hwhole : (keywordToken token keyword text).1.Whole) :
    ∃ cs, first :: text = cs ++ (keywordToken token keyword text).2 ∧
      (keywordToken token keyword text).1.Written cs := by
  unfold keywordToken at hwhole ⊢
  cases h : afterKeyword keyword text with
  | ok rest => exact ⟨first :: keyword, congrArg (first :: ·) (afterKeyword_sound h), hwritten⟩
  | error flaw =>
    rw [h] at hwhole
    cases hwhole

/-- A literal token that is read is written in the text. -/
theorem literalToken_sound {text : List Char} (hwhole : (literalToken text).1.Whole) :
    ∃ cs, text = cs ++ (literalToken text).2 ∧ (literalToken text).1.Written ('"' :: cs) := by
  unfold literalToken at hwhole ⊢
  cases h : readLiteral text with
  | mk result rest =>
    cases result with
    | ok l =>
      obtain ⟨cs, htext, hwritten⟩ := readLiteral_sound h
      exact ⟨cs, htext, .literal hwritten⟩
    | error fault =>
      rw [h] at hwhole
      cases hwhole

/-- A numeral that is read is written in the text. -/
theorem numeralToken_sound {negative : Bool} {text : List Char} (hwhole : (numeralToken negative text).1.Whole) :
    ∃ cs, text = cs ++ (numeralToken negative text).2 ∧
      (numeralToken negative text).1.Written ((if negative then ['-'] else []) ++ cs) := by
  unfold numeralToken at hwhole ⊢
  cases h : scanNumeral negative text with
  | ok result =>
    obtain ⟨n, rest⟩ := result
    obtain ⟨cs, htext, hwritten⟩ := scanNumeral_sound h
    exact ⟨cs, htext, .numeral hwritten⟩
  | error fault =>
    rw [h] at hwhole
    cases hwhole

/-- Where a token is cut off, one of its written forms stands. -/
theorem nextToken_sound {c : Char} {text : List Char} (hwhole : (nextToken c text).1.Whole) :
    ∃ cs, c :: text = cs ++ (nextToken c text).2 ∧ (nextToken c text).1.Written cs := by
  unfold nextToken at hwhole ⊢
  revert hwhole
  split
  case h_1 => exact fun _ => ⟨[','], rfl, .comma⟩
  case h_2 => exact fun _ => ⟨[':'], rfl, .colon⟩
  case h_3 => exact fun _ => ⟨['['], rfl, .openArray⟩
  case h_4 => exact fun _ => ⟨[']'], rfl, .closeArray⟩
  case h_5 => exact fun _ => ⟨['{'], rfl, .openObject⟩
  case h_6 => exact fun _ => ⟨['}'], rfl, .closeObject⟩
  case h_7 =>
    intro hwhole
    obtain ⟨cs, htext, hwritten⟩ := literalToken_sound hwhole
    exact ⟨'"' :: cs, congrArg ('"' :: ·) htext, hwritten⟩
  case h_8 => exact keywordToken_sound .null
  case h_9 => exact keywordToken_sound .true
  case h_10 => exact keywordToken_sound .false
  case h_11 =>
    intro hwhole
    obtain ⟨cs, htext, hwritten⟩ := numeralToken_sound hwhole
    exact ⟨'-' :: cs, congrArg ('-' :: ·) htext, hwritten⟩
  case h_12 =>
    intro hwhole
    split at hwhole
    · next hd =>
      obtain ⟨cs, htext, hwritten⟩ := numeralToken_sound hwhole
      rw [if_pos hd]
      exact ⟨cs, htext, hwritten⟩
    · cases hwhole

/-- The text consists of the tokens in written forms, with white space around them. -/
inductive Laid : List Token → List Char → Prop
  | nil {spaces : List Char} (h : Spaces spaces) : Laid [] spaces
  | cons {token : Token} {more : List Token} {spaces cs rest : List Char} (hs : Spaces spaces)
      (h : token.Written cs) (hrest : Laid more rest) : Laid (token :: more) (spaces ++ (cs ++ rest))

theorem spaces_cons {c : Char} (hc : isSpace c = true) {cs : List Char} (h : Spaces cs) : Spaces (c :: cs) := by
  intro d hd
  rcases List.mem_cons.mp hd with rfl | hmem
  · simp only [isSpace, Bool.or_eq_true, decide_eq_true_eq] at hc
    rcases hc with ((hc | hc) | hc) | hc <;> simp [hc]
  · exact h d hmem

theorem Laid.space {c : Char} (hc : isSpace c = true) {ts : List Token} {text : List Char} (h : Laid ts text) :
    Laid ts (c :: text) := by
  cases h with
  | nil h => exact .nil (spaces_cons hc h)
  | cons hs h hrest => exact .cons (spaces_cons hc hs) h hrest

/-- **A text without a broken token is laid out from its tokens.** -/
theorem laid_tokens {text : List Char} (h : ∀ token ∈ tokens text, token.Whole) : Laid (tokens text) text := by
  fun_induction tokens text with
  | case1 => exact .nil spaces_nil
  | case2 c text hc ih => exact (ih h).space hc
  | case3 c text hc next ih =>
    obtain ⟨hnext, hrest⟩ := List.forall_mem_cons.mp h
    obtain ⟨cs, htext, hwritten⟩ := nextToken_sound hnext
    rw [htext]
    exact .cons spaces_nil hwritten (ih hrest)

end ClientRoster.Json
