import ClientRoster.Proofs.Json.Accepted
import ClientRoster.Proofs.Json.Fields

/-!
# `ClientRoster.Proofs.Json.Record` — records within records

A field of a record may hold a record itself. Whoever reads it meets a fault where it stands, so of a text that is read
nothing has to be known beforehand: each document that goes into a field has been looked at, and what goes into none has
been looked through (`Layout.readInPlace_eq_ok_iff`). A part that is left out counts as one that gives nothing
(`atMostOnce_record_iff`), which makes the two levels one.

## Contents
- `Doc.given`, `Doc.IsRecord`, `Doc.Records`: objects and arrays as one form.
- **`Layout.readInPlace_eq_ok_iff`**: which documents are read as a record.
- `OneRecord`, `givenIn`, **`atMostOnce_record_iff`**: a part that is a record.
- `readText_eq_ok_iff`: texts, where a reader looks at the whole document.
-/

namespace ClientRoster.Json

/-! ## Objects and arrays as one form -/

/-- Each key is a text. -/
def Entries.Keyed : Entries → Prop
  | closed | cut _ => True
  | cons key _ rest => key ≠ .unpaired ∧ rest.Keyed

/-- The document has the form of a record with these fields: an object, with any keys in any order, or an array of at
most as many items. -/
def Doc.IsRecord (names : List String) : Doc → Prop
  | object entries => entries.Keyed
  | array items => items.toList.length ≤ names.length
  | _ => False

/-- What a document gives for a field: the values under its name, or the item at its place. -/
def Doc.given (names : List String) : Doc → String → List Doc
  | object entries, name => entries.valuesOf name
  | array items, name => positional names items.toList name
  | _, _ => []

/-- The document is a complete record of these fields, and what it gives for them is what they are given in a value. -/
def Doc.Records {α : Type} (names : List String) (holds : (String → List Doc) → α → Prop) (d : Doc) (a : α) : Prop :=
  d.Complete ∧ d.IsRecord names ∧ holds (d.given names) a

/-! ## Complete documents -/

theorem Items.complete_of_closed {items : Items} (hclosed : items.Closed) (h : ∀ d ∈ items.toList, d.Complete) :
    items.Complete := by
  match items with
  | .closed => trivial
  | .cons item rest =>
    have hclosed : rest.Closed := hclosed
    have hrest : ∀ d ∈ rest.toList, d.Complete := fun d hd => h d (List.mem_cons_of_mem item hd)
    exact ⟨h item List.mem_cons_self, Items.complete_of_closed hclosed hrest⟩

theorem complete_of_mem_toList {items : Items} (hc : items.Complete) {d : Doc} (hd : d ∈ items.toList) :
    d.Complete := by
  match items with
  | .closed => cases hd
  | .cons item rest =>
    rcases List.mem_cons.mp hd with rfl | hmem
    · exact hc.1
    · exact complete_of_mem_toList hc.2 hmem

theorem mem_valuesOf_cons {key : Literal} {value d : Doc} {rest : Entries} {name : String} :
    d ∈ (Entries.cons key value rest).valuesOf name ↔
      key = .plain name.toList ∧ d = value ∨ d ∈ rest.valuesOf name := by
  by_cases hkey : key = .plain name.toList
  · subst hkey
    rw [valuesOf_cons_of_eq]
    simp
  · rw [valuesOf_cons_of_ne value rest hkey]
    simp [hkey]

theorem complete_of_mem_valuesOf {entries : Entries} (hc : entries.Complete) {name : String} {d : Doc}
    (hd : d ∈ entries.valuesOf name) : d.Complete := by
  match entries with
  | .closed => cases hd
  | .cons key value rest =>
    rcases mem_valuesOf_cons.mp hd with ⟨-, rfl⟩ | hmem
    · exact hc.1
    · exact complete_of_mem_valuesOf hc.2 hmem

/-- What a complete document gives is complete. -/
theorem complete_of_mem_given {names : List String} {d : Doc} (hc : d.Complete) {name : String} {e : Doc}
    (he : e ∈ d.given names name) : e.Complete := by
  cases d with
  | object entries => exact complete_of_mem_valuesOf hc he
  | array items => exact complete_of_mem_toList hc (mem_of_mem_positional he)
  | _ => cases he

section
variable {σ : Type} {fields : List (FieldReader σ)}

theorem Entries.Readable.keyed {entries : Entries} (h : entries.Readable fields) : entries.Keyed := by
  match entries with
  | .closed => trivial
  | .cons key value rest => exact ⟨h.1, Entries.Readable.keyed h.2.2⟩

theorem Entries.readable_of_keyed {entries : Entries} (hc : entries.Complete) (hkeyed : entries.Keyed) :
    entries.Readable fields := by
  match entries with
  | .closed => trivial
  | .cons key value rest => exact ⟨hkeyed.1, fun _ => hc.1, Entries.readable_of_keyed hc.2 hkeyed.2⟩

/-- An object that can be read is complete if what it gives for the fields is. -/
theorem Entries.complete_of_readable {entries : Entries} (h : entries.Readable fields)
    (hgiven : ∀ f ∈ fields, ∀ d ∈ entries.valuesOf f.name, d.Complete) : entries.Complete := by
  match entries with
  | .closed => trivial
  | .cons key value rest =>
    obtain ⟨-, hskipped, hrest⟩ := h
    refine ⟨?_, Entries.complete_of_readable hrest fun f hf d hd => hgiven f hf d (mem_valuesOf_cons.mpr (.inr hd))⟩
    by_cases hfield : ∃ f ∈ fields, key = .plain f.name.toList
    · obtain ⟨f, hf, hkey⟩ := hfield
      exact hgiven f hf value (mem_valuesOf_cons.mpr (.inl ⟨hkey, rfl⟩))
    · exact hskipped fun f hf hkey => hfield ⟨f, hf, hkey⟩

/-- Each item of an array that is no longer than the fields stands at the place of one. -/
theorem exists_mem_positional {names : List String} (hnodup : names.Nodup) {docs : List Doc}
    (hlength : docs.length ≤ names.length) {d : Doc} (hd : d ∈ docs) :
    ∃ n ∈ names, d ∈ positional names docs n := by
  induction names generalizing docs with
  | nil =>
    obtain rfl := List.eq_nil_of_length_eq_zero (Nat.le_zero.mp hlength)
    cases hd
  | cons n names ih =>
    obtain ⟨hn, hnodup⟩ := List.nodup_cons.mp hnodup
    cases docs with
    | nil => cases hd
    | cons e docs =>
      rcases List.mem_cons.mp hd with rfl | hmem
      · exact ⟨n, List.mem_cons_self, by simp [positional]⟩
      · obtain ⟨n', hn', hmem'⟩ := ih hnodup (Nat.le_of_succ_le_succ hlength) hmem
        have hne : n' ≠ n := fun heq => hn (heq ▸ hn')
        rw [← positional_cons_of_ne hne names e docs] at hmem'
        exact ⟨n', List.mem_cons_of_mem n hn', hmem'⟩

/-! ## Reading a record where it stands -/

/-- The field looks at the whole of what is put into it. -/
def FieldReader.Looks (f : FieldReader σ) : Prop := ∀ d r r', f.put d r = .ok r' → d.Complete

theorem FieldReader.Sets.looks {α : Type} {f : FieldReader σ} {means : Doc → α → Prop} {set : α → σ → σ}
    (hf : f.Sets means set) (hmeans : ∀ d a, means d a → d.Complete) : f.Looks := by
  intro d r r' hput
  obtain ⟨a, ha, -⟩ := (hf d r r').mp hput
  exact hmeans d a ha

/-- What fields are filled with is complete. -/
theorem complete_of_filled {given : String → List Doc} (hlooks : ∀ f ∈ fields, f.Looks) {r r' : σ}
    (h : Filled given fields r r') {f : FieldReader σ} (hf : f ∈ fields) {d : Doc} (hd : d ∈ given f.name) :
    d.Complete := by
  induction fields generalizing r with
  | nil => cases hf
  | cons g fields ih =>
    obtain ⟨hg, hlooks⟩ := List.forall_mem_cons.mp hlooks
    obtain ⟨m, hfill, hfilled⟩ := h
    rcases List.mem_cons.mp hf with rfl | hmem
    · match hds : given f.name with
      | [] =>
        rw [hds] at hd
        cases hd
      | [e] =>
        rw [hds] at hd hfill
        obtain rfl := List.mem_singleton.mp hd
        exact hg d r m hfill
      | _ :: _ :: _ =>
        rw [hds] at hfill
        cases hfill
    · exact ih hlooks hfilled hmem

/-- **A document is read as a record if it is complete, has the form of one, and fills its fields.** -/
theorem Layout.readInPlace_eq_ok_iff {layout : Layout σ} (hp : layout.fields.Pairwise Apart)
    (hlooks : ∀ f ∈ layout.fields, f.Looks) {start r : σ} {d : Doc} :
    layout.readInPlace start d = .ok r ↔
      d.Records (fieldNames layout.fields) (fun given r => Filled given layout.fields start r) r := by
  have hlength : (fieldNames layout.fields).length = layout.fields.length := List.length_map _
  rw [Layout.readInPlace, Layout.read_eq_ok_iff hp]
  constructor
  · rintro (⟨hread, hfilled⟩ | ⟨hclosed, hfits, hfilled⟩)
    · have hcomplete := Entries.complete_of_readable hread fun f hf d hd => complete_of_filled hlooks hfilled hf hd
      exact ⟨hcomplete, hread.keyed, hfilled⟩
    · rename_i items
      rw [← hlength] at hfits
      have hnodup : (fieldNames layout.fields).Nodup := List.pairwise_map.mpr (hp.imp And.left)
      have hitems : ∀ d ∈ items.toList, d.Complete := by
        intro d hd
        obtain ⟨name, hname, hmem⟩ := exists_mem_positional hnodup hfits hd
        obtain ⟨f, hf, rfl⟩ := List.mem_map.mp hname
        exact complete_of_filled hlooks hfilled hf hmem
      exact ⟨Items.complete_of_closed hclosed hitems, hfits, hfilled⟩
  · rintro ⟨hcomplete, hform, hfilled⟩
    cases d with
    | object entries => exact .object (Entries.readable_of_keyed hcomplete hform) hfilled
    | array items => exact .array (Items.Complete.closed hcomplete) (hlength ▸ hform) hfilled
    | _ => cases hform

end

/-! ## Parts of a record -/

/-- At most one document is given, and it has the form of a record. -/
def OneRecord (names : List String) (ds : List Doc) : Prop := ds = [] ∨ ∃ d, ds = [d] ∧ d.IsRecord names

/-- What documents give for a field, one after the other. -/
def givenIn (names : List String) (ds : List Doc) (name : String) : List Doc :=
  ds.flatMap fun d => d.given names name

theorem givenIn_singleton (names : List String) (d : Doc) : givenIn names [d] = d.given names := by
  funext name
  rw [givenIn, List.flatMap_singleton]

/-- **A part that is left out is one that gives nothing.** If the default of the part is what it is when nothing is
given for its fields, then it is known from what is given for them. -/
theorem atMostOnce_record_iff {α : Type} {names : List String} {holds : (String → List Doc) → α → Prop} {default a : α}
    (hnothing : holds (fun _ => []) a ↔ a = default) {ds : List Doc} (hc : ∀ d ∈ ds, d.Complete) :
    AtMostOnce (Doc.Records names holds) default ds a ↔ OneRecord names ds ∧ holds (givenIn names ds) a := by
  constructor
  · rintro (⟨rfl, hdefault⟩ | ⟨d, rfl, -, hrecord, hholds⟩)
    · exact ⟨.inl rfl, hnothing.mpr hdefault⟩
    · rw [givenIn_singleton]
      exact ⟨.inr ⟨d, rfl, hrecord⟩, hholds⟩
  · rintro ⟨rfl | ⟨d, rfl, hrecord⟩, hholds⟩
    · exact .inl ⟨rfl, hnothing.mp hholds⟩
    · rw [givenIn_singleton] at hholds
      exact .inr ⟨d, rfl, hc d List.mem_cons_self, hrecord, hholds⟩

/-! ## Written records -/

theorem isRecord_record (names : List String) (entries : List (String × Doc)) : (Doc.record entries).IsRecord names := by
  show (Entries.ofList entries).Keyed
  induction entries with
  | nil => trivial
  | cons e entries ih => exact ⟨by simp, ih⟩

/-- A record with different names gives what stands under each of them. -/
theorem given_record {names : List String} {entries : List (String × Doc)} (hnodup : (entries.map Prod.fst).Nodup)
    {name : String} {d : Doc} (h : (name, d) ∈ entries) : (Doc.record entries).given names name = [d] := by
  show (Entries.ofList entries).valuesOf name = [d]
  induction entries with
  | nil => cases h
  | cons e entries ih =>
    obtain ⟨he, hnodup⟩ := List.nodup_cons.mp hnodup
    show (Entries.cons (.plain e.1.toList) e.2 (Entries.ofList entries)).valuesOf name = [d]
    rcases List.mem_cons.mp h with rfl | hmem
    · have hnone : (Entries.ofList entries).valuesOf name = [] := by
        rw [valuesOf_ofList, List.map_eq_nil_iff, List.filter_eq_nil_iff]
        intro e hmem heq
        exact he (List.mem_map.mpr ⟨e, hmem, of_decide_eq_true heq⟩)
      rw [valuesOf_cons_of_eq, hnone]
    · have hne : name ≠ e.1 := fun heq => he (List.mem_map.mpr ⟨(name, d), hmem, heq⟩)
      rw [valuesOf_cons_of_ne _ _ (plain_toList_ne hne), ih hnodup hmem]

/-! ## Texts -/

/-- Where a reader looks at the whole document, a text is read if it is one of a document that is read. -/
theorem readText_eq_ok_iff {α : Type} {decode : Doc → Read α} (hdecode : ∀ d a, decode d = .ok a → d.Complete)
    {text : List Char} {a : α} : readText decode text = .ok a ↔ ∃ d, d.IsText text ∧ decode d = .ok a := by
  constructor
  · intro h
    obtain ⟨b, hread, hlast⟩ := bind_eq_ok_iff.mp h
    split at hlast
    · cases hlast
    · next htrailing =>
      obtain rfl := Except.ok.inj hlast
      have hreading : readDoc text = ⟨(readDoc text).doc, false⟩ := by
        rw [← Bool.eq_false_iff.mpr htrailing]
      exact ⟨_, isText_iff.mpr ⟨hreading, hdecode _ _ hread⟩, hread⟩
  · rintro ⟨d, htext, hread⟩
    show (do
      let value ← decode (readDoc text).doc
      if (readDoc text).trailing then .error .malformed else .ok value) = .ok a
    rw [readDoc_isText htext, hread]
    rfl

end ClientRoster.Json
