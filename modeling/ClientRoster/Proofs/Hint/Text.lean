import ClientRoster.Proofs.Client.Text
import ClientRoster.Proofs.Hint.Line

/-!
# `ClientRoster.Proofs.Hint.Text` — a hint is read back from its text

A hint is written as a document of its own form. The one exception is the persistent source: its name is empty, and no
text is read as it. So a hint that names this source is written and then refused, and none is ever read.

## Contents
- `plain_toDoc`, `sound_toDoc`, `isHint_toDoc`: the document of a hint.
- **`ofLine_render`: each hint is read back from its text, unless it names the persistent source.**
- `ofDoc_persistent`, `source?_of_ofDoc`: the persistent source is neither read back nor read at all.
-/

namespace ClientRoster

open Json

namespace Hint

/-! ## The document of a hint -/

/-- The document of a hint has a compact form. -/
theorem plain_toDoc (h : Hint) : h.toDoc.Plain := by
  refine plain_record (List.forall_mem_cons.mpr ⟨plain_text _, ?_⟩)
  cases h with
  | hosts a s names => simp [fieldDocs, Source.toDoc, plain_text, Client.plain_hostsDoc]
  | whois a w => simp [fieldDocs, plain_text, Whois.plain_toDoc]
  | unset a s => simp [fieldDocs, Source.toDoc, plain_text]
  | remove a => simp [fieldDocs, plain_text]
  | sourceDisabled s => simp [fieldDocs, Source.toDoc, plain_text]

/-- The document of a hint has no flaw. -/
theorem sound_toDoc (h : Hint) : h.toDoc.flaw? (.kept (innerLevels + 1)) = none := by
  -- host names and registration data are one level below the hint, far from the deepest that is allowed
  have hhosts (names : List String) : (Client.hostsDoc names).flaw? (.kept innerLevels) = none :=
    Client.flaw?_hostsDoc names 125
  have hwhois (w : Whois) : w.toDoc.flaw? (.kept innerLevels) = none := Whois.flaw?_toDoc w 125
  refine flaw?_record (List.forall_mem_cons.mpr ⟨flaw?_text _ _, ?_⟩)
  cases h with
  | hosts a s names => simp [fieldDocs, Source.toDoc, flaw?_text, hhosts]
  | whois a w => simp [fieldDocs, flaw?_text, hwhois]
  | unset a s => simp [fieldDocs, Source.toDoc, flaw?_text]
  | remove a => simp [fieldDocs, flaw?_text]
  | sourceDisabled s => simp [fieldDocs, Source.toDoc, flaw?_text]

theorem isAddress_text (a : Address) : (Doc.text a.text).IsAddress a := ⟨a.text, rfl, Address.ofText?_text a⟩

/-- The entries of the document of a hint. -/
def entries (h : Hint) : Entries := Entries.ofList (("kind", .text h.kind.name) :: h.fieldDocs)

theorem valuesOf_kind (h : Hint) : h.entries.valuesOf "kind" = [.text h.kind.name] := by
  rw [entries, valuesOf_ofList]
  cases h <;> simp [fieldDocs]

theorem valuesOf_addr {h : Hint} {a : Address} (ha : h.addr? = some a) :
    Once Doc.IsAddress (h.entries.valuesOf "addr") a := by
  refine ⟨.text a.text, ?_, isAddress_text a⟩
  rw [entries, valuesOf_ofList]
  cases h with
  | sourceDisabled s => cases ha
  | hosts b s names | whois b w | unset b s | remove b =>
    obtain rfl := Option.some.inj ha
    simp [fieldDocs]

/-- The source of a hint stands in its document, unless the kind says it. -/
theorem valuesOf_source {h : Hint} {s : Source} (hs : h.source? = some s) (hkind : h.kind ≠ .whois) :
    h.entries.valuesOf "source" = [.text s.name] := by
  rw [entries, valuesOf_ofList]
  cases h with
  | whois a w => exact absurd rfl hkind
  | remove a => cases hs
  | hosts a t names | unset a t | sourceDisabled t =>
    obtain rfl := Option.some.inj hs
    simp [fieldDocs, Source.toDoc]

/-- **A hint is written in its own form,** unless it names the persistent source. -/
theorem isHint_toDoc {h : Hint} (hsource : h.source? ≠ some .persistent) : h.toDoc.IsHint h := by
  have honce {s : Source} (hs : h.source? = some s) (hkind : h.kind ≠ .whois) :
      Once Doc.IsSource (h.entries.valuesOf "source") s := by
    refine ⟨.text s.name, valuesOf_source hs hkind, ?_, rfl⟩
    rintro rfl
    exact hsource hs
  show (Doc.object h.entries).IsHint h
  refine .object (valuesOf_kind h) ?_
  -- each kind gives its own fields, so each constructor of the form is met by one of the hint
  cases h with
  | hosts a s names =>
    refine .hosts (valuesOf_addr rfl) (honce rfl nofun) (.inr ⟨Client.hostsDoc names, ?_, rfl⟩)
    simp [entries, valuesOf_ofList, fieldDocs]
  | whois a w =>
    refine .whois (valuesOf_addr rfl) ⟨w.toDoc, ?_, Whois.isWhois_toDoc w⟩
    simp [entries, valuesOf_ofList, fieldDocs]
  | unset a s => exact .unset (valuesOf_addr rfl) (honce rfl nofun)
  | remove a => exact .remove (valuesOf_addr rfl)
  | sourceDisabled s => exact .sourceDisabled (honce rfl nofun)

/-! ## The persistent source -/

/-- The source of a hint that is read from its fields is given under its name, unless the kind says it. -/
theorem Given.source {given : String → List Doc} {h : Hint} (hgiven : h.Given given) {s : Source}
    (hs : h.source? = some s) (hkind : h.kind ≠ .whois) : Once Doc.IsSource (given "source") s := by
  cases hgiven with
  | hosts _ h _ | unset _ h | sourceDisabled h =>
    obtain rfl := Option.some.inj hs
    exact h
  | whois => exact absurd rfl hkind
  | remove => cases hs

/-- No document is read as a hint that names the persistent source. -/
theorem source?_of_ofDoc {d : Doc} {h : Hint} (hread : ofDoc d = .ok h) : h.source? ≠ some .persistent := by
  intro hs
  have hkind : h.kind ≠ .whois := by
    intro hkind
    cases h <;> cases hkind
    cases hs
  -- in either form the source would be given, and the persistent one has no name that is read
  have hnone (given : String → List Doc) : ¬ h.Given given := by
    intro hgiven
    obtain ⟨_, -, hne, -⟩ := hgiven.source hs hkind
    exact hne rfl
  cases (ofDoc_eq_ok_iff.mp hread).2 with
  | object _ hgiven | array _ hgiven => exact hnone _ hgiven

theorem source?_isSome_iff {h : Hint} : h.source?.isSome = true ↔ h.kind ≠ .remove := by
  cases h <;> simp [source?, kind]

theorem kind_ne_whois {h : Hint} (hs : h.source? = some .persistent) : h.kind ≠ .whois := by
  cases h <;> simp_all [source?, kind]

/-- Whatever hint the document of a hint is read as, it is of the same kind. -/
theorem kind_of_isHint {h h' : Hint} (hform : (Doc.object h.entries).IsHint h') : h'.kind = h.kind := by
  cases hform with
  | object hkind _ =>
    rw [valuesOf_kind] at hkind
    have hname := text_injective (List.cons.inj hkind).1
    have hfound := HintKind.ofName?_eq_some_iff.mpr hname
    rw [HintKind.ofName?_eq_some_iff.mpr rfl] at hfound
    exact Option.some.inj hfound

/-- **The document of a hint that names the persistent source is refused.** -/
theorem ofDoc_persistent {h : Hint} (hs : h.source? = some .persistent) : ∃ e, ofDoc h.toDoc = .error e := by
  cases hread : ofDoc h.toDoc with
  | error e => exact ⟨e, rfl⟩
  | ok h' =>
    have hform : (Doc.object h.entries).IsHint h' := (ofDoc_eq_ok_iff.mp hread).2
    have hkind := kind_of_isHint hform
    have hwhois := kind_ne_whois hs
    -- the hint that was read has a source of its own, under the empty name
    have hsome : h'.source?.isSome = true := by
      rw [source?_isSome_iff, hkind, ← source?_isSome_iff, hs]
      rfl
    obtain ⟨s, hs'⟩ := Option.isSome_iff_exists.mp hsome
    cases hform with
    | object _ hgiven =>
      obtain ⟨d, hd, hne, rfl⟩ := hgiven.source hs' (hkind ▸ hwhois)
      rw [valuesOf_source hs hwhois] at hd
      have hname := text_injective (List.cons.inj hd).1
      exact absurd (Source.name_injective hname).symm hne

/-! ## The text of a hint -/

theorem chars_ends_entries {entries : Entries} (h : entries.Plain) (first : Bool) :
    ∃ front, entries.chars first = front ++ ['}'] := by
  cases entries with
  | closed => exact ⟨[], rfl⟩
  | cut fault => exact absurd h id
  | cons key value rest =>
    obtain ⟨front, hfront⟩ := chars_ends_entries h.2.2 false
    rw [Entries.chars, hfront]
    exact ⟨_, (List.append_assoc _ _ _).symm⟩

/-- There is no white space at the ends of the text of a hint. -/
theorem trim_render (h : Hint) : Text.trim h.toDoc.render.toList = h.toDoc.chars := by
  have hplain : h.entries.Plain := h.plain_toDoc
  obtain ⟨front, hfront⟩ := chars_ends_entries hplain true
  have hchars : h.toDoc.chars = '{' :: (front ++ ['}']) := congrArg ('{' :: ·) hfront
  rw [Doc.render, String.toList_ofList, hchars]
  exact Text.trim_of_ends front (by decide) (by decide)

/-- The text of a hint is a text of its document. -/
theorem isText_render (h : Hint) : h.toDoc.IsText (Text.trim h.toDoc.render.toList) := by
  rw [trim_render]
  exact isText_chars h.plain_toDoc

/-- **Each hint is read back from its text,** unless it names the persistent source. -/
theorem ofLine_render {h : Hint} (hsource : h.source? ≠ some .persistent) :
    ofLine h.toDoc.render = .ok (some h) := by
  rw [ofLine_isText h.isText_render, map_some_eq_ok_iff]
  exact ofDoc_eq_ok_iff.mpr ⟨h.sound_toDoc, isHint_toDoc hsource⟩

/-- The text of a hint that names the persistent source is refused. -/
theorem ofLine_persistent {h : Hint} (hs : h.source? = some .persistent) :
    ∃ e, ofLine h.toDoc.render = .error e := by
  obtain ⟨e, he⟩ := ofDoc_persistent hs
  rw [ofLine_isText h.isText_render, he]
  exact ⟨e, rfl⟩

/-- No line is read as a hint that names the persistent source. -/
theorem source?_of_ofLine {line : String} {h : Hint} (hread : ofLine line = .ok (some h)) :
    h.source? ≠ some .persistent := by
  obtain ⟨d, -, hdoc⟩ := isText_of_ofLine hread
  exact source?_of_ofDoc hdoc

end Hint

end ClientRoster
