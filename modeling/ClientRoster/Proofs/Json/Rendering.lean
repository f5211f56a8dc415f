import ClientRoster.Proofs.Json.Reading
import ClientRoster.Proofs.Text.Fields

/-!
# `ClientRoster.Proofs.Json.Rendering` — the compact form is a written form

What the library writes is one of the forms in which a document may be written, so it is read as the document that it
was written from. It also holds no control character: a line feed inside a text is written as an escape.

## Contents
- `escapeChar_written`, `literalChars_written`: literals, character by character.
- `Doc.Plain`: documents that have a compact form.
- **`isText_chars`: the compact form is a text of the document**, and `render_injective`.
- `Doc.noControl_chars`.
-/

namespace ClientRoster.Json

/-! ## Literals -/

instance (c : Char) (value : Nat) : Decidable (HexDigit c value) :=
  inferInstanceAs (Decidable ((_ ∧ _ ∧ _) ∨ (_ ∧ _ ∧ _) ∨ (_ ∧ _ ∧ _)))

theorem hexDigit_digitChar : ∀ n, n < 16 → HexDigit (Nat.digitChar n) n := by decide

/-- A character below the surrogates is the piece of its own unit. -/
theorem ofUnit_toNat {c : Char} (h : c.toNat < 0xd800) : Piece.ofUnit c.toNat = .char c := by
  rw [Piece.ofUnit, if_pos h, Char.ofNat_toNat]

/-- A control character is written as a unit of four digits. -/
theorem control_written {c : Char} (h : c.toNat < 0x20) : (Piece.char c).Written
    ['\\', 'u', '0', '0', Nat.digitChar (c.toNat / 16), Nat.digitChar (c.toNat % 16)] := by
  have hzero : HexDigit '0' 0 := hexDigit_digitChar 0 (by decide)
  have hhigh := hexDigit_digitChar (c.toNat / 16) (by omega)
  have hlow := hexDigit_digitChar (c.toNat % 16) (by omega)
  have hunit := Piece.Written.unit hzero hzero hhigh hlow
  have hvalue : ((0 * 16 + 0) * 16 + c.toNat / 16) * 16 + c.toNat % 16 = c.toNat := by omega
  rwa [hvalue, ofUnit_toNat (by omega)] at hunit

/-- Each character is written in one of its forms. -/
theorem escapeChar_written (c : Char) : (Piece.char c).Written (escapeChar c) := by
  unfold escapeChar
  split
  · next h =>
    refine .escape ?_
    rcases h with rfl | rfl <;> decide
  split
  · next h => exact h ▸ .escape (by decide)
  split
  · next h => exact h ▸ .escape (by decide)
  split
  · next h => exact h ▸ .escape (by decide)
  split
  · next h => exact h ▸ .escape (by decide)
  split
  · next h => exact h ▸ .escape (by decide)
  split
  · next h => exact control_written h
  · next hspecial _ _ _ _ _ hcontrol =>
    exact .plain (fun h => hspecial (.inl h)) (fun h => hspecial (.inr h)) (Nat.not_lt.mp hcontrol)

theorem piecesWritten_escape (text : List Char) :
    PiecesWritten (text.map .char) (text.flatMap escapeChar) := by
  induction text with
  | nil => exact .nil
  | cons c text ih =>
    rw [List.map_cons, List.flatMap_cons]
    exact .cons (escapeChar_written c) ih

theorem spells_chars (text : List Char) : Spells (text.map .char) text := by
  induction text with
  | nil => exact .nil
  | cons c text ih => exact .char ih

/-- The written form of a text is one of a literal that spells it. -/
theorem literalChars_written (text : List Char) : (Literal.plain text).Written (literalChars text) :=
  .plain (piecesWritten_escape text) (spells_chars text)

/-! ## Documents -/

mutual

/-- The document has a compact form: reading did not stop in it, each literal spells a text, and each numeral is one
that can be written. -/
def Doc.Plain : Doc → Prop
  | .null | .bool _ => True
  | .numeral n => n.Written n.chars
  | .literal l => l ≠ .unpaired
  | .array items => items.Plain
  | .object entries => entries.Plain
  | .broken _ => False

/-- All items have a compact form. -/
def Items.Plain : Items → Prop
  | .closed => True
  | .cut _ => False
  | .cons item rest => item.Plain ∧ rest.Plain

/-- All keys and values have a compact form. -/
def Entries.Plain : Entries → Prop
  | .closed => True
  | .cut _ => False
  | .cons key value rest => key ≠ .unpaired ∧ value.Plain ∧ rest.Plain

end

theorem plain_text (s : String) : (Doc.text s).Plain := by
  simp [Doc.text, Doc.Plain]

theorem text_injective {s t : String} (h : Doc.text s = Doc.text t) : s = t :=
  String.toList_inj.mp (Literal.plain.inj (Doc.literal.inj h))

theorem plain_nat (n : Nat) : (Doc.nat n).Plain := by
  have hdigits : Digits (Nat.toDigits 10 n) :=
    ⟨Nat.toDigits_ne_nil, fun _ => Nat.isDigit_of_mem_toDigits (by decide) (by decide)⟩
  have hzero : (Nat.toDigits 10 n).head? = some '0' → Nat.toDigits 10 n = ['0'] := by
    intro hhead
    by_cases hn : n = 0
    · rw [hn]
      rfl
    · exact absurd hhead (Text.head?_toDigits_ne_zero (by decide) (by decide) hn)
  have hwritten : (Numeral.ofNat n).Written ([] ++ (Nat.toDigits 10 n ++ ([] ++ []))) :=
    .intro hdigits hzero .none .none
  show (Numeral.ofNat n).Written (Numeral.ofNat n).chars
  simpa [Numeral.chars, Numeral.ofNat] using hwritten

theorem plain_list {items : List Doc} (h : ∀ d ∈ items, d.Plain) : (Doc.list items).Plain := by
  show (Items.ofList items).Plain
  induction items with
  | nil => trivial
  | cons d items ih =>
    obtain ⟨hd, hitems⟩ := List.forall_mem_cons.mp h
    exact ⟨hd, ih hitems⟩

theorem plain_record {entries : List (String × Doc)} (h : ∀ e ∈ entries, e.2.Plain) : (Doc.record entries).Plain := by
  show (Entries.ofList entries).Plain
  induction entries with
  | nil => trivial
  | cons e entries ih =>
    obtain ⟨he, hentries⟩ := List.forall_mem_cons.mp h
    exact ⟨by simp, he, ih hentries⟩

theorem Literal.written_chars {l : Literal} (h : l ≠ .unpaired) : l.Written l.chars := by
  cases l with
  | plain text => exact literalChars_written text
  | unpaired => exact absurd rfl h

/-- Compact forms have no white space between tokens. -/
theorem separates_compact (first : Bool) : Separates first (if first then [] else [',']) := by
  cases first with
  | true => exact .first spaces_nil
  | false => exact .comma spaces_nil spaces_nil

mutual

/-- **The compact form of a document is one of its written forms.** -/
theorem Doc.written_chars {d : Doc} (h : d.Plain) : d.Written d.chars := by
  match d with
  | .null => exact .null
  | .bool true => exact .true
  | .bool false => exact .false
  | .numeral n => exact .numeral h
  | .literal l => exact .literal (Literal.written_chars h)
  | .array items => exact .array (Items.written_chars h true)
  | .object entries => exact .object (Entries.written_chars h true)

theorem Items.written_chars {items : Items} (h : items.Plain) (first : Bool) :
    items.Written first (items.chars first) := by
  match items with
  | .closed => exact .closed spaces_nil
  | .cons item rest =>
    rw [Items.chars, List.append_assoc]
    exact .cons (separates_compact first) (Doc.written_chars h.1) (Items.written_chars h.2 false)

theorem Entries.written_chars {entries : Entries} (h : entries.Plain) (first : Bool) :
    entries.Written first (entries.chars first) := by
  match entries with
  | .closed => exact .closed spaces_nil
  | .cons key value rest =>
    obtain ⟨hkey, hvalue, hrest⟩ := h
    have hcolon : ColonWritten [':'] := .intro spaces_nil spaces_nil
    have hwritten := Entries.Written.cons (separates_compact first) (Literal.written_chars hkey) hcolon
      (Doc.written_chars hvalue) (Entries.written_chars hrest false)
    simpa [Entries.chars] using hwritten

end

/-- **The compact form is a text of the document.** -/
theorem isText_chars {d : Doc} (h : d.Plain) : d.IsText d.chars := by
  have htext : d.IsText ([] ++ (d.chars ++ [])) := .intro spaces_nil (Doc.written_chars h) spaces_nil
  rwa [List.nil_append, List.append_nil] at htext

/-- **No two plain documents have one compact form.** -/
theorem render_injective {d e : Doc} (hd : d.Plain) (he : e.Plain) (h : d.render = e.render) : d = e := by
  have hchars : d.chars = e.chars := String.ofList_injective h
  have htext := isText_chars hd
  rw [hchars] at htext
  exact isText_unique htext (isText_chars he)

/-! ## No control character is written -/

/-- No control character is in the text. -/
def NoControl (cs : List Char) : Prop := ∀ c ∈ cs, 0x20 ≤ c.toNat

instance (cs : List Char) : Decidable (NoControl cs) := List.decidableBAll _ cs

theorem noControl_nil : NoControl [] := by
  intro c hc
  cases hc

theorem noControl_cons {c : Char} {cs : List Char} : NoControl (c :: cs) ↔ 0x20 ≤ c.toNat ∧ NoControl cs :=
  List.forall_mem_cons

theorem noControl_append {cs ds : List Char} : NoControl (cs ++ ds) ↔ NoControl cs ∧ NoControl ds :=
  List.forall_mem_append

theorem noControl_digitChar : ∀ n, n < 16 → 0x20 ≤ (Nat.digitChar n).toNat := by decide

theorem noControl_escapeChar (c : Char) : NoControl (escapeChar c) := by
  unfold escapeChar
  split
  · next h => rcases h with rfl | rfl <;> decide
  iterate 5
    split
    · decide
  split
  · next h =>
    have hhigh := noControl_digitChar (c.toNat / 16) (by omega)
    have hlow := noControl_digitChar (c.toNat % 16) (by omega)
    simp [noControl_cons, noControl_nil, hhigh, hlow]
  · next h => simp [noControl_cons, noControl_nil, Nat.not_lt.mp h]

theorem Literal.noControl_chars (l : Literal) : NoControl l.chars := by
  cases l with
  | unpaired => exact noControl_nil
  | plain text =>
    have hmiddle : NoControl (text.flatMap escapeChar) := by
      intro c hc
      obtain ⟨d, -, hd⟩ := List.mem_flatMap.mp hc
      exact noControl_escapeChar d c hd
    simp [Literal.chars, literalChars, noControl_cons, noControl_append, noControl_nil, hmiddle]

theorem Digits.noControl {cs : List Char} (h : Digits cs) : NoControl cs := by
  intro c hc
  have hdigit := h.2 c hc
  simp only [Char.isDigit, Bool.and_eq_true, decide_eq_true_eq] at hdigit
  have hlow : '0'.toNat ≤ c.toNat := hdigit.1
  exact Nat.le_trans (by decide) hlow

theorem Numeral.Written.noControl {n : Numeral} {cs : List Char} (h : n.Written cs) : NoControl cs := by
  cases h with
  | @intro negative whole fraction cs ds exponent hw hzero hf he =>
    have hsign : NoControl (if negative then ['-'] else []) := by
      cases negative <;> decide
    have hfraction : NoControl cs := by
      cases hf with
      | none => exact noControl_nil
      | some h => exact noControl_cons.mpr ⟨by decide, h.noControl⟩
    have hexponent : NoControl ds := by
      cases he with
      | none => exact noControl_nil
      | @some e negative sign digits he hs h =>
        have hletter : 0x20 ≤ e.toNat := by
          rcases he with rfl | rfl <;> decide
        have hmark : NoControl sign := by
          cases hs <;> decide
        exact noControl_cons.mpr ⟨hletter, noControl_append.mpr ⟨hmark, h.noControl⟩⟩
    exact noControl_append.mpr
      ⟨hsign, noControl_append.mpr ⟨hw.noControl, noControl_append.mpr ⟨hfraction, hexponent⟩⟩⟩

theorem noControl_comma (first : Bool) : NoControl (if first then [] else [',']) := by
  cases first <;> decide

mutual

/-- **No control character is in a compact form.** -/
theorem Doc.noControl_chars {d : Doc} (h : d.Plain) : NoControl d.chars := by
  match d with
  | .null | .bool true | .bool false => decide
  | .numeral n => exact Numeral.Written.noControl h
  | .literal l => exact l.noControl_chars
  | .array items => exact noControl_cons.mpr ⟨by decide, Items.noControl_chars h true⟩
  | .object entries => exact noControl_cons.mpr ⟨by decide, Entries.noControl_chars h true⟩

theorem Items.noControl_chars {items : Items} (h : items.Plain) (first : Bool) :
    NoControl (items.chars first) := by
  match items with
  | .closed => exact noControl_cons.mpr ⟨by decide, noControl_nil⟩
  | .cons item rest =>
    rw [Items.chars, List.append_assoc]
    exact noControl_append.mpr ⟨noControl_comma first,
      noControl_append.mpr ⟨Doc.noControl_chars h.1, Items.noControl_chars h.2 false⟩⟩

theorem Entries.noControl_chars {entries : Entries} (h : entries.Plain) (first : Bool) :
    NoControl (entries.chars first) := by
  match entries with
  | .closed => exact noControl_cons.mpr ⟨by decide, noControl_nil⟩
  | .cons key value rest =>
    obtain ⟨-, hvalue, hrest⟩ := h
    have hback : NoControl (':' :: value.chars) := noControl_cons.mpr ⟨by decide, Doc.noControl_chars hvalue⟩
    rw [Entries.chars]
    refine noControl_append.mpr ⟨noControl_append.mpr ⟨noControl_append.mpr ⟨noControl_comma first, ?_⟩, hback⟩, ?_⟩
    · exact key.noControl_chars
    · exact Entries.noControl_chars hrest false

end

end ClientRoster.Json
