import ClientRoster.Json.Token
import ClientRoster.Proofs.Json.Grammar

/-!
# `ClientRoster.Proofs.Json.Tokens` — the tokens of a written document

Whatever form a document is written in, the cut into tokens finds the words of the document and nothing else. A
numeral is the one word without an end of its own, so what follows it must not go on like one (`Ends`).

## Contents
- `bind_eq_ok_iff`: a reading in two parts.
- `scanPieces_append`, `joinPieces?_eq_some_iff`, `literalToken_written`: literals.
- `scanNumeral_append`, `nextToken_numeral`: numerals.
- `Doc.words`, and **`tokens_written`: the tokens of a written form are the words of its document**.
-/

namespace ClientRoster.Json

/-- A reading in two parts succeeds if both do. -/
theorem bind_eq_ok_iff {ε α β : Type} {first : Except ε α} {next : α → Except ε β} {b : β} :
    (first >>= next) = .ok b ↔ ∃ a, first = .ok a ∧ next a = .ok b := by
  cases first with
  | error e =>
    constructor
    · intro h
      cases h
    · rintro ⟨a, ha, -⟩
      cases ha
  | ok a =>
    constructor
    · intro h
      exact ⟨a, rfl, h⟩
    · rintro ⟨b, hb, h⟩
      obtain rfl := Except.ok.inj hb
      exact h

/-! ## Literals -/

theorem char_le_iff {c d : Char} : c ≤ d ↔ c.toNat ≤ d.toNat := Iff.rfl

/-- The digits of base sixteen are the hexadecimal digits. -/
theorem digitValue?_eq_some_iff {c : Char} {value : Nat} :
    Text.digitValue? 16 c = some value ↔ HexDigit c value := by
  have h0 : '0'.toNat = 48 := rfl
  have h9 : '9'.toNat = 57 := rfl
  have ha : 'a'.toNat = 97 := rfl
  have hf : 'f'.toNat = 102 := rfl
  have hz : 'z'.toNat = 122 := rfl
  have hA : 'A'.toNat = 65 := rfl
  have hF : 'F'.toNat = 70 := rfl
  have hZ : 'Z'.toNat = 90 := rfl
  unfold Text.digitValue? HexDigit
  simp only [char_le_iff, h0, h9, ha, hf, hz, hA, hF, hZ, Option.ite_none_right_eq_some, Option.some.injEq]
  by_cases hd : 48 ≤ c.toNat ∧ c.toNat ≤ 57
  · rw [if_pos hd]
    omega
  by_cases hl : 97 ≤ c.toNat ∧ c.toNat ≤ 122
  · rw [if_neg hd, if_pos hl]
    omega
  by_cases hu : 65 ≤ c.toNat ∧ c.toNat ≤ 90
  · rw [if_neg hd, if_neg hl, if_pos hu]
    omega
  · rw [if_neg hd, if_neg hl, if_neg hu]
    omega

theorem escaped?_of_mem {letter c : Char} (h : (letter, c) ∈ escapeLetters) :
    letter ≠ 'u' ∧ escaped? letter = some c := by
  simp only [escapeLetters, List.mem_cons, Prod.mk.injEq, List.not_mem_nil, or_false] at h
  rcases h with h | h | h | h | h | h | h | h <;> obtain ⟨rfl, rfl⟩ := h <;> decide

theorem scanPieces_quote (rest : List Char) : scanPieces ('"' :: rest) = .done rest := by
  rw [scanPieces.eq_def]
  rfl

/-- A written piece is scanned as that piece. -/
theorem scanPieces_append {p : Piece} {front : List Char} (h : p.Written front) (rest : List Char) :
    scanPieces (front ++ rest) = (scanPieces rest).push p := by
  cases h with
  | plain hquote hslash hcontrol =>
    rw [List.singleton_append, scanPieces.eq_def]
    simp [hquote, hslash, Nat.not_lt.mpr hcontrol]
  | escape h =>
    obtain ⟨hu, hc⟩ := escaped?_of_mem h
    rw [List.cons_append, List.singleton_append, scanPieces.eq_def]
    simp [hu, hc]
  | unit ha hb hc hd =>
    simp only [List.cons_append, List.nil_append]
    rw [scanPieces.eq_def]
    simp [Text.natOfDigits?, Text.natFrom?, digitValue?_eq_some_iff.mpr ha, digitValue?_eq_some_iff.mpr hb,
      digitValue?_eq_some_iff.mpr hc, digitValue?_eq_some_iff.mpr hd]

theorem scanPieces_written {ps : List Piece} {cs : List Char} (h : PiecesWritten ps cs) (rest : List Char) :
    scanPieces (cs ++ '"' :: rest) = ⟨ps, none, rest⟩ := by
  induction h with
  | nil =>
    rw [List.nil_append, scanPieces_quote]
    rfl
  | cons hp _ ih =>
    rw [List.append_assoc, scanPieces_append hp, ih]
    rfl

theorem joinPieces?_eq_some_iff {ps : List Piece} {text : List Char} :
    joinPieces? ps = some text ↔ Spells ps text := by
  constructor
  · intro h
    fun_induction joinPieces? ps generalizing text with
    | case1 =>
      cases h
      exact .nil
    | case2 c rest ih =>
      obtain ⟨tail, htail, rfl⟩ := Option.map_eq_some_iff.mp h
      exact .char (ih htail)
    | case3 lead trail rest ih =>
      obtain ⟨tail, htail, rfl⟩ := Option.map_eq_some_iff.mp h
      exact .pair (ih htail) rfl
    | case4 => cases h
  · intro h
    induction h with
    | nil => rfl
    | char _ ih => simp [joinPieces?, ih]
    | pair _ hc ih => simp [joinPieces?, ih, pairChar, hc]

/-- A written literal is read as that literal. -/
theorem literalToken_written {l : Literal} {cs : List Char} (h : l.Written ('"' :: cs)) (rest : List Char) :
    literalToken (cs ++ rest) = (.literal l, rest) := by
  cases h with
  | @plain ps text cs hp ht =>
    have hread : readLiteral (cs ++ '"' :: rest) = (.ok (.plain text), rest) := by
      simp [readLiteral, scanPieces_written hp, joinPieces?_eq_some_iff.mpr ht]
    simp [literalToken, hread]
  | @unpaired ps cs hp ht =>
    have hjoin : joinPieces? ps = none := by
      cases hj : joinPieces? ps with
      | none => rfl
      | some text => exact absurd (joinPieces?_eq_some_iff.mp hj) (ht text)
    have hread : readLiteral (cs ++ '"' :: rest) = (.ok .unpaired, rest) := by
      simp [readLiteral, scanPieces_written hp, hjoin]
    simp [literalToken, hread]

/-- A written literal begins with a quote. -/
theorem Literal.Written.quote {l : Literal} {cs : List Char} (h : l.Written cs) : ∃ tail, cs = '"' :: tail := by
  cases h with
  | plain hp ht => exact ⟨_, rfl⟩
  | unpaired hp ht => exact ⟨_, rfl⟩

/-! ## Numerals -/

/-- The text does not go on with a digit. -/
def NoDigitFirst (text : List Char) : Prop := ∀ c, text.head? = some c → c.isDigit = false

/-- The text does not go on like a numeral. -/
def Ends (text : List Char) : Prop :=
  ∀ c, text.head? = some c → c.isDigit = false ∧ c ≠ '.' ∧ c ≠ 'e' ∧ c ≠ 'E'

theorem Ends.noDigitFirst {text : List Char} (h : Ends text) : NoDigitFirst text := fun c hc => (h c hc).1

theorem noDigitFirst_cons {c : Char} (text : List Char) (h : c.isDigit = false) : NoDigitFirst (c :: text) := by
  intro d hd
  obtain rfl := Option.some.inj hd
  exact h

theorem spanDigits_append {digits : List Char} (h : ∀ c ∈ digits, c.isDigit = true) {rest : List Char}
    (hrest : NoDigitFirst rest) : spanDigits (digits ++ rest) = (digits, rest) := by
  unfold spanDigits
  rw [List.takeWhile_append_of_pos h, List.dropWhile_append_of_pos h]
  cases rest with
  | nil => simp
  | cons c rest => simp [hrest c rfl]

theorem scanWhole_append {whole rest : List Char} (h : Digits whole)
    (hzero : whole.head? = some '0' → whole = ['0']) (hrest : NoDigitFirst rest) :
    scanWhole (whole ++ rest) = .ok (whole, rest) := by
  unfold scanWhole
  rw [spanDigits_append h.2 hrest]
  split
  · next heq => exact absurd (Prod.mk.inj heq).1 h.1
  · next heq =>
    -- more than a zero behind a zero, which no numeral has
    rw [(Prod.mk.inj heq).1] at hzero
    simp at hzero
  · next heq =>
    obtain ⟨rfl, rfl⟩ := Prod.mk.inj heq
    rfl

theorem scanFraction_append {fraction cs rest : List Char} (h : FractionWritten fraction cs)
    (hrest : NoDigitFirst rest) (hpoint : rest.head? ≠ some '.') :
    scanFraction (cs ++ rest) = .ok (fraction, rest) := by
  cases h with
  | none =>
    unfold scanFraction
    split
    · next heq =>
      rw [List.nil_append] at heq
      simp [heq] at hpoint
    · rfl
  | some h =>
    rw [List.cons_append, scanFraction, spanDigits_append h.2 hrest]
    split
    · next heq => exact absurd (Prod.mk.inj heq).1 h.1
    · next heq =>
      obtain ⟨rfl, rfl⟩ := Prod.mk.inj heq
      rfl

theorem scanSign_append {negative : Bool} {sign digits : List Char} (hs : SignWritten negative sign)
    (h : Digits digits) (rest : List Char) : scanSign (sign ++ (digits ++ rest)) = (negative, digits ++ rest) := by
  cases hs with
  | minus => rfl
  | plus => rfl
  | nothing =>
    -- the first digit is taken for no sign
    obtain ⟨hne, hall⟩ := h
    cases digits with
    | nil => exact absurd rfl hne
    | cons c digits =>
      have hc := hall c List.mem_cons_self
      simp only [List.nil_append, List.cons_append]
      unfold scanSign
      split
      · next heq =>
        rw [(List.cons.inj heq).1] at hc
        cases hc
      · next heq =>
        rw [(List.cons.inj heq).1] at hc
        cases hc
      · rfl

theorem scanExponent_append {exponent : Option (Bool × List Char)} {ds rest : List Char}
    (h : ExponentWritten exponent ds) (hrest : Ends rest) :
    scanExponent (ds ++ rest) = .ok (exponent, rest) := by
  cases h with
  | none =>
    cases rest with
    | nil => rfl
    | cons c rest =>
      obtain ⟨-, -, he, hE⟩ := hrest c rfl
      simp [scanExponent, he, hE]
  | some he hs h =>
    rw [List.cons_append, List.append_assoc, scanExponent, if_pos he, scanSign_append hs h]
    simp only [spanDigits_append h.2 hrest.noDigitFirst]
    split
    · next heq => exact absurd (Prod.mk.inj heq).1 h.1
    · next heq =>
      obtain ⟨rfl, rfl⟩ := Prod.mk.inj heq
      rfl

/-- An exponent begins with its letter, and a missing one leaves what follows. -/
theorem head_of_exponentWritten {exponent : Option (Bool × List Char)} {ds rest : List Char}
    (h : ExponentWritten exponent ds) (hrest : Ends rest) :
    NoDigitFirst (ds ++ rest) ∧ (ds ++ rest).head? ≠ some '.' := by
  cases h with
  | none =>
    refine ⟨hrest.noDigitFirst, ?_⟩
    intro hpoint
    exact (hrest '.' hpoint).2.1 rfl
  | some he hs h => rcases he with rfl | rfl <;> exact ⟨noDigitFirst_cons _ rfl, by simp⟩

/-- A written numeral, from behind its sign, is scanned as that numeral. -/
theorem scanNumeral_append {negative : Bool} {whole fraction cs ds rest : List Char}
    {exponent : Option (Bool × List Char)} (hw : Digits whole) (hzero : whole.head? = some '0' → whole = ['0'])
    (hf : FractionWritten fraction cs) (he : ExponentWritten exponent ds) (hrest : Ends rest) :
    scanNumeral negative (whole ++ (cs ++ (ds ++ rest))) = .ok (⟨negative, whole, fraction, exponent⟩, rest) := by
  obtain ⟨hdigit, hpoint⟩ := head_of_exponentWritten he hrest
  have hafter : NoDigitFirst (cs ++ (ds ++ rest)) := by
    cases hf with
    | none => exact hdigit
    | some h => exact noDigitFirst_cons _ rfl
  unfold scanNumeral
  rw [scanWhole_append hw hzero hafter]
  simp only [bind, Except.bind]
  rw [scanFraction_append hf hdigit hpoint]
  simp only [scanExponent_append he hrest]

theorem nextToken_digit {c : Char} (text : List Char) (h : c.isDigit = true) :
    nextToken c text = numeralToken false (c :: text) := by
  unfold nextToken
  split
  case h_12 => rw [if_pos h]
  all_goals cases h

/-- **A written numeral is read as that numeral,** if what follows does not go on like one. -/
theorem nextToken_numeral {n : Numeral} {c : Char} {cs rest : List Char} (h : n.Written (c :: cs))
    (hrest : Ends rest) : isSpace c = false ∧ nextToken c (cs ++ rest) = (.numeral n, rest) := by
  -- the numeral may begin with a sign or with its first digit, so its text is split only after the case analysis
  generalize htext : c :: cs = text at h
  cases h with
  | @intro negative whole fraction cs' ds exponent hw hzero hf he =>
    have hscan : scanNumeral negative (whole ++ (cs' ++ (ds ++ rest))) =
        .ok (⟨negative, whole, fraction, exponent⟩, rest) := scanNumeral_append hw hzero hf he hrest
    cases negative with
    | true =>
      simp only [if_true, List.cons_append, List.nil_append, List.cons.injEq] at htext
      obtain ⟨rfl, rfl⟩ := htext
      refine ⟨rfl, ?_⟩
      simp only [List.append_assoc]
      simp [nextToken, numeralToken, hscan]
    | false =>
      obtain ⟨hne, hall⟩ := hw
      cases whole with
      | nil => exact absurd rfl hne
      | cons d whole =>
        simp only [Bool.false_eq_true, if_false, List.cons_append, List.nil_append, List.cons.injEq] at htext
        obtain ⟨rfl, rfl⟩ := htext
        have hd := hall c List.mem_cons_self
        refine ⟨?_, ?_⟩
        · cases hspace : isSpace c with
          | false => rfl
          | true =>
            simp only [isSpace, Bool.or_eq_true, decide_eq_true_eq] at hspace
            rcases hspace with ((rfl | rfl) | rfl) | rfl <;> cases hd
        · rw [nextToken_digit _ hd]
          simp only [List.append_assoc]
          simp only [List.cons_append] at hscan
          simp [numeralToken, hscan]

/-! ## The words of a document -/

mutual

/-- The tokens of a complete document, without regard to how they are written. -/
def Doc.words : Doc → List Token
  | .null => [.null]
  | .bool b => [.bool b]
  | .numeral n => [.numeral n]
  | .literal l => [.literal l]
  | .array items => .openArray :: items.words true
  | .object entries => .openObject :: entries.words true
  | .broken _ => []

/-- The tokens of items, from the first or a later one on, with the bracket. -/
def Items.words (first : Bool) : Items → List Token
  | .closed => [.closeArray]
  | .cut _ => []
  | .cons item rest => (if first then [] else [.comma]) ++ (item.words ++ rest.words false)

/-- The tokens of entries, from the first or a later one on, with the brace. -/
def Entries.words (first : Bool) : Entries → List Token
  | .closed => [.closeObject]
  | .cut _ => []
  | .cons key value rest =>
    (if first then [] else [.comma]) ++ (.literal key :: .colon :: (value.words ++ rest.words false))

end

theorem spaces_nil : Spaces [] := by
  intro c hc
  cases hc

theorem tokens_spaces {front : List Char} (h : Spaces front) (rest : List Char) :
    tokens (front ++ rest) = tokens rest := by
  induction front with
  | nil => rfl
  | cons c front ih =>
    have hc : isSpace c = true := by
      rcases h c List.mem_cons_self with rfl | rfl | rfl | rfl <;> rfl
    rw [List.cons_append, tokens_cons_of_space _ hc]
    exact ih fun d hd => h d (List.mem_cons_of_mem _ hd)

theorem tokens_separates {first : Bool} {sep : List Char} (h : Separates first sep) (rest : List Char) :
    tokens (sep ++ rest) = (if first then [] else [.comma]) ++ tokens rest := by
  cases h with
  | first h => exact tokens_spaces h rest
  | comma hf hb =>
    rw [List.append_assoc, tokens_spaces hf, List.cons_append, tokens_cons _ rfl]
    exact congrArg (Token.comma :: ·) (tokens_spaces hb rest)

theorem tokens_colon {colon : List Char} (h : ColonWritten colon) (rest : List Char) :
    tokens (colon ++ rest) = .colon :: tokens rest := by
  cases h with
  | intro hf hb =>
    rw [List.append_assoc, tokens_spaces hf, List.cons_append, tokens_cons _ rfl]
    exact congrArg (Token.colon :: ·) (tokens_spaces hb rest)

theorem tokens_literal {l : Literal} {cs : List Char} (h : l.Written cs) (rest : List Char) :
    tokens (cs ++ rest) = .literal l :: tokens rest := by
  obtain ⟨tail, rfl⟩ := h.quote
  rw [List.cons_append, tokens_cons _ rfl]
  have hnext : nextToken '"' (tail ++ rest) = (.literal l, rest) := literalToken_written h rest
  rw [hnext]

theorem tokens_numeral {n : Numeral} {cs rest : List Char} (h : n.Written cs) (hrest : Ends rest) :
    tokens (cs ++ rest) = .numeral n :: tokens rest := by
  cases cs with
  | nil =>
    -- a numeral has at least one digit
    generalize htext : ([] : List Char) = text at h
    cases h with
    | intro hw hzero hf he => simp [hw.1] at htext
  | cons c cs =>
    obtain ⟨hspace, hnext⟩ := nextToken_numeral h hrest
    rw [List.cons_append, tokens_cons _ hspace, hnext]

theorem ends_cons {c : Char} (rest : List Char) (h : c.isDigit = false ∧ c ≠ '.' ∧ c ≠ 'e' ∧ c ≠ 'E') :
    Ends (c :: rest) := by
  intro d hd
  obtain rfl := Option.some.inj hd
  exact h

/-- What begins with white space and then a separator does not go on like a numeral. -/
theorem ends_spaces {spaces : List Char} (h : Spaces spaces) {rest : List Char} (hrest : Ends rest) :
    Ends (spaces ++ rest) := by
  cases spaces with
  | nil => exact hrest
  | cons c spaces =>
    refine ends_cons _ ?_
    rcases h c List.mem_cons_self with rfl | rfl | rfl | rfl <;> decide

theorem ends_separates {sep : List Char} (h : Separates false sep) (rest : List Char) : Ends (sep ++ rest) := by
  cases h with
  | comma hf hb =>
    rw [List.append_assoc]
    exact ends_spaces hf (ends_cons _ (by decide))

theorem ends_items {items : Items} {cs : List Char} (h : items.Written false cs) (rest : List Char) :
    Ends (cs ++ rest) := by
  cases h with
  | closed hs =>
    rw [List.append_assoc]
    exact ends_spaces hs (ends_cons _ (by decide))
  | cons hs _ _ =>
    rw [List.append_assoc]
    exact ends_separates hs _

theorem ends_entries {entries : Entries} {cs : List Char} (h : entries.Written false cs) (rest : List Char) :
    Ends (cs ++ rest) := by
  cases h with
  | closed hs =>
    rw [List.append_assoc]
    exact ends_spaces hs (ends_cons _ (by decide))
  | cons hs _ _ _ _ =>
    rw [List.append_assoc]
    exact ends_separates hs _

mutual

/-- **The tokens of a written document are its words.** -/
theorem Doc.tokens_written {d : Doc} {cs : List Char} (h : d.Written cs) {rest : List Char} (hrest : Ends rest) :
    tokens (cs ++ rest) = d.words ++ tokens rest := by
  cases h with
  | null =>
    simp only [List.cons_append, List.nil_append]
    rw [tokens_cons _ rfl]
    rfl
  | true =>
    simp only [List.cons_append, List.nil_append]
    rw [tokens_cons _ rfl]
    rfl
  | false =>
    simp only [List.cons_append, List.nil_append]
    rw [tokens_cons _ rfl]
    rfl
  | numeral h => exact tokens_numeral h hrest
  | literal h => exact tokens_literal h rest
  | array h =>
    rw [List.cons_append, tokens_cons _ rfl]
    exact congrArg (Token.openArray :: ·) (Items.tokens_written h rest)
  | object h =>
    rw [List.cons_append, tokens_cons _ rfl]
    exact congrArg (Token.openObject :: ·) (Entries.tokens_written h rest)

theorem Items.tokens_written {first : Bool} {items : Items} {cs : List Char} (h : items.Written first cs)
    (rest : List Char) : tokens (cs ++ rest) = items.words first ++ tokens rest := by
  cases h with
  | closed hs =>
    rw [List.append_assoc, tokens_spaces hs, List.singleton_append, tokens_cons _ rfl]
    rfl
  | cons hs h hrest =>
    rw [List.append_assoc, tokens_separates hs, List.append_assoc,
      Doc.tokens_written h (ends_items hrest rest), Items.tokens_written hrest rest]
    simp only [Items.words, List.append_assoc]

theorem Entries.tokens_written {first : Bool} {entries : Entries} {cs : List Char}
    (h : entries.Written first cs) (rest : List Char) :
    tokens (cs ++ rest) = entries.words first ++ tokens rest := by
  cases h with
  | closed hs =>
    rw [List.append_assoc, tokens_spaces hs, List.singleton_append, tokens_cons _ rfl]
    rfl
  | cons hs hk hc h hrest =>
    rw [List.append_assoc, tokens_separates hs, List.append_assoc, tokens_literal hk, List.append_assoc,
      tokens_colon hc, List.append_assoc, Doc.tokens_written h (ends_entries hrest rest),
      Entries.tokens_written hrest rest]
    simp only [Entries.words, List.append_assoc, List.cons_append]

end

end ClientRoster.Json
