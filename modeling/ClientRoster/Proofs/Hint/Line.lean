import ClientRoster.Proofs.Hint.Form
import ClientRoster.Proofs.Json.Accepted
import ClientRoster.Proofs.Json.Rendering

/-!
# `ClientRoster.Proofs.Hint.Line` — which lines hold a hint

A document is looked through twice: once for its kind, which asks of everything else only that it is sound, and once
for the fields of that kind. Both passes together accept the sound documents of the form of a hint, and no others.

## Contents
- `kindOfEntries_none_eq_ok_iff`: the first pass.
- `Hint.ofDoc_eq_ok_iff`: both passes.
- **`Hint.ofLine_eq_ok_some_iff`: the lines that are read as a hint.**
-/

namespace ClientRoster

open Json

/-! ## The kind -/

theorem HintKind.ofName?_eq_some_iff {text : String} {kind : HintKind} :
    ofName? text = some kind ↔ kind.name = text := by
  constructor
  · intro h
    have hname := List.find?_some h
    exact of_decide_eq_true hname
  · rintro rfl
    cases kind <;> rfl

theorem HintKind.ofDoc_eq_ok_iff {d : Doc} {kind : HintKind} : HintKind.ofDoc d = .ok kind ↔ d = .text kind.name := by
  rw [HintKind.ofDoc, bind_eq_ok_iff]
  constructor
  · rintro ⟨name, hname, h⟩
    cases hkind : ofName? name with
    | none =>
      simp only [hkind] at h
      cases h
    | some k =>
      simp only [hkind] at h
      obtain rfl := Except.ok.inj h
      rw [ofName?_eq_some_iff.mp hkind]
      exact Doc.asText_eq_ok_iff.mp hname
  · rintro rfl
    refine ⟨kind.name, Doc.asText_eq_ok_iff.mpr rfl, ?_⟩
    simp only [ofName?_eq_some_iff.mpr rfl]

namespace Hint

theorem flaw?_cons_eq_none_iff {text : List Char} {value : Doc} {rest : Entries} {care : Care} :
    (Entries.cons (.plain text) value rest).flaw? care = none ↔
      value.flaw? care = none ∧ rest.flaw? care = none := by
  rw [Entries.flaw?, Option.or_eq_none_iff, Option.or_eq_none_iff]
  exact and_iff_right rfl

theorem kindOfEntries_skip {seen : Option HintKind} {name : String} (hname : name ≠ "kind") {value : Doc}
    {rest : Entries} {kind : HintKind} :
    kindOfEntries seen (.cons (.plain name.toList) value rest) = .ok kind ↔
      value.flaw? (.kept innerLevels) = none ∧ kindOfEntries seen rest = .ok kind := by
  rw [kindOfEntries, Literal.text?_plain]
  simp only [bind, Except.bind, if_neg hname]
  cases hflaw : value.flaw? (.kept innerLevels) <;> simp [requireSound]

theorem kindOfEntries_repeated {k kind : HintKind} {value : Doc} {rest : Entries} :
    kindOfEntries (some k) (.cons (.plain "kind".toList) value rest) ≠ .ok kind := by
  rw [kindOfEntries, Literal.text?_plain]
  simp [bind, Except.bind]

theorem kindOfEntries_kind {kind : HintKind} {value : Doc} {rest : Entries} :
    kindOfEntries none (.cons (.plain "kind".toList) value rest) = .ok kind ↔
      ∃ k, value = .text k.name ∧ kindOfEntries (some k) rest = .ok kind := by
  rw [kindOfEntries, Literal.text?_plain]
  simp only [← HintKind.ofDoc_eq_ok_iff]
  show (HintKind.ofDoc value >>= fun k => kindOfEntries (some k) rest) = .ok kind ↔ _
  exact bind_eq_ok_iff

/-- Once the kind is known, the first pass asks that it does not come again. -/
theorem kindOfEntries_some_eq_ok_iff {k kind : HintKind} {entries : Entries} :
    kindOfEntries (some k) entries = .ok kind ↔
      entries.flaw? (.kept innerLevels) = none ∧ entries.valuesOf "kind" = [] ∧ kind = k := by
  match entries with
  | .closed => simp [kindOfEntries, Entries.flaw?, Entries.valuesOf, eq_comm]
  | .cut fault => simp [kindOfEntries, Entries.flaw?]
  | .cons .unpaired value rest =>
    simp [kindOfEntries, Literal.text?, bind, Except.bind, Entries.flaw?, Literal.flaw?]
  | .cons (.plain text) value rest =>
    obtain ⟨name, rfl⟩ := exists_toList text
    by_cases hname : name = "kind"
    · subst hname
      rw [valuesOf_cons_of_eq]
      constructor
      · intro h
        exact absurd h kindOfEntries_repeated
      · rintro ⟨-, hnone, -⟩
        cases hnone
    · rw [kindOfEntries_skip hname, kindOfEntries_some_eq_ok_iff, flaw?_cons_eq_none_iff,
        valuesOf_cons_of_ne value rest (plain_toList_ne (Ne.symm hname)), and_assoc]

/-- **The first pass finds the kind of a sound object that gives it once.** -/
theorem kindOfEntries_none_eq_ok_iff {kind : HintKind} {entries : Entries} :
    kindOfEntries none entries = .ok kind ↔
      entries.flaw? (.kept innerLevels) = none ∧ entries.valuesOf "kind" = [.text kind.name] := by
  match entries with
  | .closed => simp [kindOfEntries, Entries.valuesOf]
  | .cut fault => simp [kindOfEntries, Entries.flaw?]
  | .cons .unpaired value rest =>
    simp [kindOfEntries, Literal.text?, bind, Except.bind, Entries.flaw?, Literal.flaw?]
  | .cons (.plain text) value rest =>
    obtain ⟨name, rfl⟩ := exists_toList text
    by_cases hname : name = "kind"
    · subst hname
      rw [kindOfEntries_kind, valuesOf_cons_of_eq, flaw?_cons_eq_none_iff]
      simp only [kindOfEntries_some_eq_ok_iff, List.cons.injEq]
      constructor
      · rintro ⟨k, rfl, hflaw, hnone, rfl⟩
        exact ⟨⟨rfl, hflaw⟩, rfl, hnone⟩
      · rintro ⟨⟨-, hflaw⟩, hvalue, hnone⟩
        exact ⟨kind, hvalue, hflaw, hnone, rfl⟩
    · rw [kindOfEntries_skip hname, kindOfEntries_none_eq_ok_iff, flaw?_cons_eq_none_iff,
        valuesOf_cons_of_ne value rest (plain_toList_ne (Ne.symm hname)), and_assoc]

/-! ## The fields -/

theorem ofEntries_eq_ok_iff {kind : HintKind} {entries : Entries} {h : Hint} : ofEntries kind entries = .ok h ↔
    ∃ draft, readEntries kind.layout.fields [] entries {} = .ok draft ∧ kind.finish draft = .ok h := by
  rw [ofEntries, bind_eq_ok_iff]
  refine exists_congr fun draft => and_congr_right fun _ => ?_
  cases kind.finish draft <;> simp

theorem ofItems_eq_ok_iff {kind : HintKind} {items : Items} {h : Hint} : ofItems kind items = .ok h ↔
    ∃ draft, kind.layout.readWhole {} (.array items) = .ok draft ∧ kind.finish draft = .ok h := by
  rw [ofItems, bind_eq_ok_iff]
  refine exists_congr fun draft => and_congr_right fun _ => ?_
  cases kind.finish draft <;> simp

/-- The second pass over a sound object. -/
theorem ofEntries_iff {kind : HintKind} {entries : Entries} {h : Hint} (hc : entries.Complete)
    (hl : Spelled entries.literals) :
    ofEntries kind entries = .ok h ↔ h.kind = kind ∧ h.Given entries.valuesOf := by
  have hsound : ∀ d ∈ entries.valuesOf "info", d.Complete ∧ Spelled d.literals :=
    fun d => sound_of_mem_valuesOf hc hl
  rw [ofEntries_eq_ok_iff]
  constructor
  · rintro ⟨draft, hread, hfinish⟩
    obtain ⟨-, -, hfilled⟩ := (readEntries_eq_ok_iff kind.pairwise_apart).mp hread
    exact HintKind.given_of_finish hsound hfilled hfinish
  · rintro ⟨rfl, hgiven⟩
    obtain ⟨draft, hfilled, hfinish⟩ := HintKind.finish_of_given hsound hgiven
    refine ⟨draft, (readEntries_eq_ok_iff h.kind.pairwise_apart).mpr ⟨?_, ?_, hfilled⟩, hfinish⟩
    · exact Entries.readable hc hl _
    · intro f _ hmem
      cases hmem

/-- The second pass over the sound items of an array, behind its kind. -/
theorem ofItems_iff {kind : HintKind} {items : Items} {h : Hint} (hc : items.Complete)
    (hl : Spelled items.literals) : ofItems kind items = .ok h ↔
      h.kind = kind ∧ items.toList.length ≤ kind.fieldOrder.length ∧
        h.Given (positional kind.fieldOrder items.toList) := by
  have hsound : ∀ d ∈ positional kind.fieldOrder items.toList "info", d.Complete ∧ Spelled d.literals :=
    fun d hd => sound_of_mem_toList hc hl (mem_of_mem_positional hd)
  have hlength : kind.layout.fields.length = kind.fieldOrder.length := by
    rw [← HintKind.fieldNames_layout, fieldNames, List.length_map]
  rw [ofItems_eq_ok_iff]
  constructor
  · rintro ⟨draft, hread, hfinish⟩
    obtain _ | ⟨-, hle, hfilled⟩ := (Layout.read_eq_ok_iff kind.pairwise_apart).mp hread
    rw [HintKind.fieldNames_layout] at hfilled
    obtain ⟨hkind, hgiven⟩ := HintKind.given_of_finish hsound hfilled hfinish
    exact ⟨hkind, hlength ▸ hle, hgiven⟩
  · rintro ⟨rfl, hle, hgiven⟩
    obtain ⟨draft, hfilled, hfinish⟩ := HintKind.finish_of_given hsound hgiven
    rw [← HintKind.fieldNames_layout] at hfilled
    refine ⟨draft, (Layout.read_eq_ok_iff h.kind.pairwise_apart).mpr ?_, hfinish⟩
    exact .array hc.closed (hlength ▸ hle) hfilled

/-! ## Documents and lines -/

theorem ofDoc_object_iff {entries : Entries} {h : Hint} : ofDoc (.object entries) = .ok h ↔
    entries.flaw? (.kept innerLevels) = none ∧ (Doc.object entries).IsHint h := by
  rw [ofDoc, bind_eq_ok_iff]
  simp only [kindOfEntries_none_eq_ok_iff]
  constructor
  · rintro ⟨kind, ⟨hflaw, hkind⟩, hread⟩
    obtain ⟨hc, -, -, hl⟩ := (Entries.flaw?_kept_eq_none_iff entries innerLevels).mp hflaw
    obtain ⟨rfl, hgiven⟩ := (ofEntries_iff hc hl).mp hread
    exact ⟨hflaw, .object hkind hgiven⟩
  · rintro ⟨hflaw, hform⟩
    obtain ⟨hc, -, -, hl⟩ := (Entries.flaw?_kept_eq_none_iff entries innerLevels).mp hflaw
    cases hform with
    | object hkind hgiven => exact ⟨h.kind, ⟨hflaw, hkind⟩, (ofEntries_iff hc hl).mpr ⟨rfl, hgiven⟩⟩

theorem ofDoc_array_iff {first : Doc} {rest : Items} {h : Hint} : ofDoc (.array (.cons first rest)) = .ok h ↔
    rest.flaw? (.kept innerLevels) = none ∧ (Doc.array (.cons first rest)).IsHint h := by
  rw [ofDoc, bind_eq_ok_iff]
  simp only [HintKind.ofDoc_eq_ok_iff]
  constructor
  · rintro ⟨kind, rfl, hread⟩
    obtain ⟨_, hrest, hread⟩ := bind_eq_ok_iff.mp hread
    have hflaw := requireSound_eq_ok_iff.mp hrest
    obtain ⟨hc, -, -, hl⟩ := (Items.flaw?_kept_eq_none_iff rest innerLevels).mp hflaw
    obtain ⟨rfl, hlength, hgiven⟩ := (ofItems_iff hc hl).mp hread
    exact ⟨hflaw, .array hlength hgiven⟩
  · rintro ⟨hflaw, hform⟩
    obtain ⟨hc, -, -, hl⟩ := (Items.flaw?_kept_eq_none_iff rest innerLevels).mp hflaw
    cases hform with
    | array hlength hgiven =>
      refine ⟨h.kind, rfl, bind_eq_ok_iff.mpr ⟨(), requireSound_eq_ok_iff.mpr hflaw, ?_⟩⟩
      exact (ofItems_iff hc hl).mpr ⟨rfl, hlength, hgiven⟩

/-- **The documents that are read as a hint** are the sound ones of its form, up to the deepest that is allowed. -/
theorem ofDoc_eq_ok_iff {d : Doc} {h : Hint} :
    ofDoc d = .ok h ↔ d.flaw? (.kept (innerLevels + 1)) = none ∧ d.IsHint h := by
  match d with
  | .object entries => exact ofDoc_object_iff
  | .array (.cons first rest) =>
    rw [ofDoc_array_iff, Doc.flaw?, Items.flaw?, Option.or_eq_none_iff]
    refine and_congr_left fun hform => ?_
    -- the first item is the name of a kind, which has no flaw
    cases hform
    exact (and_iff_right rfl).symm
  | .array .closed | .array (.cut fault) =>
    constructor
    · intro hread
      cases hread
    · rintro ⟨-, hform⟩
      cases hform
  | .null | .bool _ | .numeral _ | .literal _ | .broken _ =>
    constructor
    · intro hread
      exact absurd hread (Doc.mismatch_ne_ok _ _ h)
    · rintro ⟨-, hform⟩
      cases hform

/-- A line around a text of a document is read as that document. -/
theorem ofLine_isText {line : String} {d : Doc} (htext : d.IsText (Text.trim line.toList)) :
    ofLine line = (ofDoc d).map some := by
  have hread : readText ofDoc (Text.trim line.toList) = ofDoc d := by
    unfold readText
    rw [readDoc_isText htext]
    cases h : ofDoc d <;> simp [h, bind, Except.bind]
  unfold ofLine
  split
  · next hnil => exact absurd hnil htext.ne_nil
  · rw [hread]

theorem map_some_eq_ok_iff {α : Type} {x : Read α} {a : α} : x.map some = .ok (some a) ↔ x = .ok a := by
  cases x <;> simp [Except.map]

/-- A line that holds a hint is a text of a document that is read as the hint. -/
theorem isText_of_ofLine {line : String} {h : Hint} (hread : ofLine line = .ok (some h)) :
    ∃ d, d.IsText (Text.trim line.toList) ∧ ofDoc d = .ok h := by
  unfold ofLine at hread
  split at hread
  · cases hread
  · obtain ⟨h', hdoc, hlast⟩ := bind_eq_ok_iff.mp (map_some_eq_ok_iff.mp hread)
    split at hlast
    · cases hlast
    · next htrailing =>
      obtain rfl := Except.ok.inj hlast
      obtain ⟨hcomplete, -⟩ := (Doc.flaw?_kept_eq_none_iff _ _).mp (ofDoc_eq_ok_iff.mp hdoc).1
      refine ⟨_, isText_iff.mpr ⟨?_, hcomplete⟩, hdoc⟩
      rw [← Bool.eq_false_iff.mpr htrailing]

/-- **Which lines hold a hint, and which hint.** The text without white space at its ends has to be a document. Of the
documents these are the ones of the form of a hint in which at most 127 arrays and objects stand within each other, each
numeral is in the floating-point range, and each literal spells a text; all others are refused. How far that range goes
is told by `Doc.IsText.valued_of_magnitude_lt` and `Doc.IsText.magnitude_lt_of_valued`. -/
theorem ofLine_eq_ok_some_iff (line : String) (h : Hint) :
    (∀ d : Doc, d.IsText (Text.trim line.toList) →
      (ofLine line = .ok (some h) ↔ (d.depth ≤ 127 ∧ Valued d.numerals ∧ Spelled d.literals) ∧ d.IsHint h) ∧
      ofLine line ≠ .ok none) ∧
    ((∀ d : Doc, ¬ d.IsText (Text.trim line.toList)) → ofLine line ≠ .ok (some h)) := by
  constructor
  · intro d htext
    rw [ofLine_isText htext]
    constructor
    · rw [map_some_eq_ok_iff, ofDoc_eq_ok_iff, Doc.flaw?_kept_eq_none_iff]
      simp only [innerLevels, htext.complete, true_and]
    · cases ofDoc d <;> simp [Except.map]
  · intro hnone hread
    obtain ⟨d, htext, -⟩ := isText_of_ofLine hread
    exact hnone d htext

/-- A hint to remove an address, its kind last and behind something that is no field of it. -/
def surplusDoc : Doc := .record [("x", .list [.null]), ("addr", .text "::1"), ("kind", .text "remove")]

/-- A line of this document. -/
def surplusLine : String := " \x7b\"x\":[null],\"addr\":\"::1\",\"kind\":\"remove\"\x7d\t"

theorem ofLine_eq_ok_some_iff_surplus : surplusDoc.IsText (Text.trim surplusLine.toList) ∧
    ofLine surplusLine = .ok (some (.remove (.v6 ⟨[0, 0, 0, 0, 0, 0, 0, 1], rfl⟩))) := by
  have htext : surplusDoc.IsText (Text.trim surplusLine.toList) := by
    have htrim : Text.trim surplusLine.toList = surplusDoc.chars := by decide
    have hplain : surplusDoc.Plain := plain_record (by simp [plain_text, Doc.list, Doc.Plain, Items.Plain, Items.ofList])
    exact htrim ▸ isText_chars hplain
  have hform : surplusDoc.IsHint (.remove (.v6 ⟨[0, 0, 0, 0, 0, 0, 0, 1], rfl⟩)) :=
    .object rfl (.remove ⟨.text "::1", rfl, "::1", rfl, by decide⟩)
  exact ⟨htext, ((ofLine_eq_ok_some_iff _ _).1 _ htext).1.mpr ⟨by decide, hform⟩⟩

/-- A hint to remove an address, and beside it half of a pair. -/
def halfPairDoc : Doc := .record [("kind", .text "remove"), ("addr", .text "::1"), ("x", .literal .unpaired)]

/-- A line of this document. -/
def halfPairLine : String := "\x7b\"kind\":\"remove\",\"addr\":\"::1\",\"x\":\"\\ud800\"\x7d"

theorem halfPair_isText : halfPairDoc.IsText (Text.trim halfPairLine.toList) := by
  have hcolon : ColonWritten [':'] := .intro spaces_nil spaces_nil
  have hhalf : Literal.unpaired.Written ['"', '\\', 'u', 'd', '8', '0', '0', '"'] := by
    have hunit : (Piece.lead 0).Written ['\\', 'u', 'd', '8', '0', '0'] :=
      .unit (w := 13) (x := 8) (y := 0) (z := 0) (by decide) (by decide) (by decide) (by decide)
    refine .unpaired (.cons hunit .nil) ?_
    intro text hspells
    cases hspells
  have hx := Entries.Written.cons (separates_compact false) (literalChars_written "x".toList) hcolon (.literal hhalf)
    (.closed spaces_nil)
  have haddr := Entries.Written.cons (separates_compact false) (literalChars_written "addr".toList) hcolon
    (.literal (literalChars_written "::1".toList)) hx
  have hkind := Entries.Written.cons (separates_compact true) (literalChars_written "kind".toList) hcolon
    (.literal (literalChars_written "remove".toList)) haddr
  exact .intro spaces_nil (.object hkind) spaces_nil

/-- The form alone does not decide: half of a pair in a literal is refused even where nothing is read from it. -/
theorem not_forall_isHint_iff :
    ¬ ∀ (line : String) (d : Doc) (h : Hint), d.IsText (Text.trim line.toList) → d.depth ≤ 127 → Valued d.numerals →
      (ofLine line = .ok (some h) ↔ d.IsHint h) := by
  intro hall
  have hform : halfPairDoc.IsHint (.remove (.v6 ⟨[0, 0, 0, 0, 0, 0, 0, 1], rfl⟩)) :=
    .object rfl (.remove ⟨.text "::1", rfl, "::1", rfl, by decide⟩)
  have hread := (hall halfPairLine halfPairDoc _ halfPair_isText (by decide) (by decide)).mpr hform
  rw [ofLine_isText halfPair_isText, map_some_eq_ok_iff, ofDoc_eq_ok_iff] at hread
  exact absurd hread.1 (by decide)

end Hint

end ClientRoster
