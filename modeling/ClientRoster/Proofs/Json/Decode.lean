import ClientRoster.Json.Decode
import ClientRoster.Proofs.Json.Flaw

/-!
# `ClientRoster.Proofs.Json.Decode` — which documents are read as a value

For each reader of a plain value, the documents that it accepts and what they mean. The readers differ in their errors
alone: of what a document could mean instead, a statement about acceptance says nothing.

## Contents
- `requireSound_eq_ok_iff`: a document that is looked through for flaws.
- `asText_eq_ok_iff`, `asOptionalText_eq_ok_iff`, `asTexts_eq_ok_iff`.
- `Doc.IsBool`, `Doc.IsCount`: truth values and counts, with `asBool_eq_ok_iff` and `asCount_eq_ok_iff`.
-/

namespace ClientRoster.Json

theorem requireSound_eq_ok_iff {flaw : Option Flaw} {u : Unit} : requireSound flaw = .ok u ↔ flaw = none := by
  cases flaw <;> simp [requireSound]

theorem Literal.text?_eq_ok_iff {l : Literal} {s : String} : l.text? = .ok s ↔ l = .plain s.toList := by
  cases l with
  | plain text =>
    simp only [Literal.text?, Except.ok.injEq, Literal.plain.injEq]
    constructor
    · rintro rfl
      exact String.toList_ofList.symm
    · rintro rfl
      exact String.ofList_toList
  | unpaired => exact ⟨fun h => (nomatch h), fun h => (nomatch h)⟩

theorem Literal.text?_plain (name : String) : Literal.text? (.plain name.toList) = .ok name :=
  Literal.text?_eq_ok_iff.mpr rfl

theorem exists_toList (text : List Char) : ∃ name : String, text = name.toList :=
  ⟨String.ofList text, String.toList_ofList.symm⟩

namespace Doc

/-- A document of another type than expected has no value. -/
theorem mismatch_ne_ok {α : Type} (expected : String) (d : Doc) (a : α) : d.mismatch expected ≠ .ok a := by
  intro h
  obtain ⟨found, -, herror⟩ := bind_eq_ok_iff.mp h
  cases herror

theorem asText_eq_ok_iff {expected : String} {d : Doc} {s : String} :
    d.asText expected = .ok s ↔ d = .text s := by
  cases d with
  | literal l =>
    rw [asText, Literal.text?_eq_ok_iff, Doc.text, Doc.literal.injEq]
  | _ => exact ⟨fun h => absurd h (mismatch_ne_ok expected _ s), fun h => (nomatch h)⟩

/-- A text, or `null` for the absence of one. -/
inductive IsOptionalText : Doc → Option String → Prop
  | null : IsOptionalText .null none
  | text (s : String) : IsOptionalText (.text s) (some s)

theorem asOptionalText_eq_ok_iff {d : Doc} {value : Option String} :
    d.asOptionalText = .ok value ↔ IsOptionalText d value := by
  constructor
  · intro h
    unfold asOptionalText at h
    split at h
    · obtain rfl := Except.ok.inj h
      exact .null
    · cases hd : d.asText "a string" with
      | error e =>
        rw [hd] at h
        cases h
      | ok s =>
        rw [hd] at h
        obtain rfl := Except.ok.inj h
        rw [asText_eq_ok_iff.mp hd]
        exact .text s
  · intro h
    cases h with
    | null => rfl
    | text s =>
      have hs : (Doc.text s).asText "a string" = .ok s := asText_eq_ok_iff.mpr rfl
      show ((Doc.text s).asText "a string").map some = .ok (some s)
      rw [hs]
      rfl

end Doc

/-! ## Truth values and counts -/

theorem natOfDecimal_eq (digits : List Char) : natOfDecimal digits = Nat.ofDigitChars 10 digits 0 := by
  have hstep : (fun n c => n * 10 + digitValue c) = fun n c => 10 * n + (c.toNat - '0'.toNat) := by
    funext n c
    rw [digitValue, Nat.mul_comm]
  rw [natOfDecimal, Nat.ofDigitChars, hstep]

/-- The numerals of a natural number are its digits alone. -/
theorem Numeral.integer?_eq_some_natCast_iff {m : Numeral} {n : Nat} : m.integer? = some (n : Int) ↔
    m = ⟨false, m.whole, [], none⟩ ∧ natOfDecimal m.whole = n ∧ n < UInt64.size := by
  obtain ⟨negative, whole, fraction, exponent⟩ := m
  unfold integer?
  constructor
  · intro h
    split at h
    · next hplain =>
      obtain ⟨hfraction, hexponent⟩ := Bool.and_eq_true_iff.mp hplain
      obtain rfl := List.isEmpty_iff.mp hfraction
      obtain rfl := Option.isNone_iff_eq_none.mp hexponent
      cases negative with
      | true =>
        -- a number below zero is no natural number
        obtain ⟨hrange, hvalue⟩ := Option.ite_none_right_eq_some.mp h
        have hpos : 0 < natOfDecimal whole := hrange.1
        have hneg : -(natOfDecimal whole : Int) = n := Option.some.inj hvalue
        omega
      | false =>
        obtain ⟨hrange, hvalue⟩ := Option.ite_none_right_eq_some.mp h
        obtain rfl : natOfDecimal whole = n := Int.ofNat.inj (Option.some.inj hvalue)
        exact ⟨rfl, rfl, hrange⟩
    · cases h
  · rintro ⟨hform, rfl, hrange⟩
    obtain ⟨rfl, -, rfl, rfl⟩ := Numeral.mk.inj hform
    exact if_pos hrange

namespace Doc

/-- The document is a truth value. -/
def IsBool (d : Doc) (b : Bool) : Prop := d = .bool b

theorem asBool_eq_ok_iff {d : Doc} {b : Bool} : d.asBool = .ok b ↔ d.IsBool b := by
  cases d with
  | bool value => rw [asBool, IsBool, Except.ok.injEq, Doc.bool.injEq]
  | _ => exact ⟨fun h => absurd h (mismatch_ne_ok "a boolean" _ b), fun h => (nomatch h)⟩

/-- Digits without a sign, a point and an exponent, which write a number of at most 64 bits. -/
def IsCount (d : Doc) (n : Nat) : Prop :=
  ∃ digits, d = .numeral ⟨false, digits, [], none⟩ ∧ Nat.ofDigitChars 10 digits 0 = n ∧ n < UInt64.size

theorem isCount_iff {d : Doc} {n : Nat} :
    d.IsCount n ↔ ∃ m, d = .numeral m ∧ m.integer? = some (n : Int) := by
  constructor
  · rintro ⟨digits, rfl, hvalue, hrange⟩
    have hdecimal : natOfDecimal digits = n := natOfDecimal_eq digits ▸ hvalue
    exact ⟨_, rfl, Numeral.integer?_eq_some_natCast_iff.mpr ⟨rfl, hdecimal, hrange⟩⟩
  · rintro ⟨m, rfl, hm⟩
    obtain ⟨hform, hvalue, hrange⟩ := Numeral.integer?_eq_some_natCast_iff.mp hm
    exact ⟨m.whole, congrArg Doc.numeral hform, natOfDecimal_eq m.whole ▸ hvalue, hrange⟩

theorem asCount_eq_ok_iff {d : Doc} {n : Nat} : d.asCount = .ok n ↔ d.IsCount n := by
  rw [isCount_iff]
  cases d with
  | numeral m =>
    have hcount : (numeral m).asCount = .ok n ↔ m.integer? = some (n : Int) := by
      cases hm : m.integer? with
      | none => cases hx : m.float? <;> simp [asCount, found, Numeral.value?, hm, hx, bind, Except.bind]
      | some i =>
        by_cases hi : 0 ≤ i
        · have hnat : i.toNat = n ↔ i = n := by omega
          simp [asCount, found, Numeral.value?, hm, bind, Except.bind, hi, hnat]
        · have hne : i ≠ n := by omega
          simp [asCount, found, Numeral.value?, hm, bind, Except.bind, hi, hne]
    simp [hcount]
  | _ =>
    constructor
    · intro h
      exact absurd h (mismatch_ne_ok "usize" _ n)
    · rintro ⟨_, h, -⟩
      cases h

/-- A number of at most 64 bits is written as a count. -/
theorem isCount_nat {n : Nat} (h : n < UInt64.size) : (Doc.nat n).IsCount n :=
  ⟨Nat.toDigits 10 n, rfl, Nat.ofDigitChars_toDigits (by decide) (by decide), h⟩

end Doc

/-! ## Items -/

/-- The items, without regard to how they end. -/
def Items.toList : Items → List Doc
  | closed | cut _ => []
  | cons item rest => item :: rest.toList

/-- The items of a sound array are sound. -/
theorem sound_of_mem_toList {items : Items} (hc : items.Complete) (hl : Spelled items.literals) {d : Doc}
    (hd : d ∈ items.toList) : d.Complete ∧ Spelled d.literals := by
  match items with
  | .closed => cases hd
  | .cons item rest =>
    obtain ⟨hitem, hrest⟩ := spelled_append.mp hl
    rcases List.mem_cons.mp hd with rfl | hmem
    · exact ⟨hc.1, hitem⟩
    · exact sound_of_mem_toList hc.2 hrest hmem

theorem Items.asTexts_eq_ok_iff {items : Items} {texts : List String} :
    items.asTexts = .ok texts ↔ items = .ofList (texts.map .text) := by
  match items, texts with
  | .closed, [] => exact ⟨fun _ => rfl, fun _ => rfl⟩
  | .closed, _ :: _ => exact ⟨fun h => (nomatch h), fun h => (nomatch h)⟩
  | .cut fault, [] => exact ⟨fun h => (nomatch h), fun h => (nomatch h)⟩
  | .cut fault, _ :: _ => exact ⟨fun h => (nomatch h), fun h => (nomatch h)⟩
  | .cons item rest, texts =>
    rw [asTexts]
    constructor
    · intro h
      obtain ⟨s, hs, h⟩ := bind_eq_ok_iff.mp h
      obtain ⟨more, hmore, h⟩ := bind_eq_ok_iff.mp h
      obtain rfl := Except.ok.inj h
      rw [Doc.asText_eq_ok_iff.mp hs, asTexts_eq_ok_iff.mp hmore]
      rfl
    · intro h
      cases texts with
      | nil => cases h
      | cons s more =>
        obtain ⟨hitem, hrest⟩ := Items.cons.inj h
        refine bind_eq_ok_iff.mpr ⟨s, Doc.asText_eq_ok_iff.mpr hitem, ?_⟩
        exact bind_eq_ok_iff.mpr ⟨more, asTexts_eq_ok_iff.mpr hrest, rfl⟩

theorem Doc.asTexts_eq_ok_iff {d : Doc} {texts : List String} :
    d.asTexts = .ok texts ↔ d = .list (texts.map .text) := by
  cases d with
  | array items => rw [asTexts, Items.asTexts_eq_ok_iff, Doc.list, Doc.array.injEq]
  | _ => exact ⟨fun h => absurd h (mismatch_ne_ok "a sequence" _ texts), fun h => (nomatch h)⟩

end ClientRoster.Json
