import ClientRoster.Hint.Json
import ClientRoster.Proofs.Whois.Form

/-!
# `ClientRoster.Proofs.Hint.Form` — which documents are hints

A hint is an object that gives its kind under `kind`, or an array that gives it first. The fields of the kind are given
by name or by position, each with a document of its form; only host names may be missing. What else an object holds
does not matter, and an array holds nothing else.

## Contents
- `Doc.IsAddress`, `Doc.IsSource`, `Doc.IsTexts`, `Hint.Given`, **`Doc.IsHint`: the form of a hint**.
- `HintKind.pairwise_apart`: the fields of a kind do not get into each other's way.
- `HintKind.given_of_finish`, `HintKind.finish_of_given`: a kind makes the hint of which the fields are given.
-/

namespace ClientRoster

open Json

/-! ## The form of a hint -/

namespace Json.Doc

/-- The document is a text that is read as this address. -/
def IsAddress (d : Doc) (a : Address) : Prop := ∃ text, d = .text text ∧ Address.ofText? text = some a

/-- The document is the name of this source, which is not the persistent one. -/
def IsSource (d : Doc) (s : Source) : Prop := s ≠ .persistent ∧ d = .text s.name

/-- The document is an array of these texts. -/
def IsTexts (d : Doc) (texts : List String) : Prop := d = .list (texts.map .text)

end Json.Doc

/-- The fields of a hint are given with its values. -/
inductive Hint.Given (given : String → List Doc) : Hint → Prop
  | hosts {a : Address} {s : Source} {names : List String} (ha : Once Doc.IsAddress (given "addr") a)
      (hs : Once Doc.IsSource (given "source") s) (hn : AtMostOnce Doc.IsTexts [] (given "hosts") names) :
      Given given (.hosts a s names)
  | whois {a : Address} {w : Whois} (ha : Once Doc.IsAddress (given "addr") a)
      (hw : Once Doc.IsWhois (given "info") w) : Given given (.whois a w)
  | unset {a : Address} {s : Source} (ha : Once Doc.IsAddress (given "addr") a)
      (hs : Once Doc.IsSource (given "source") s) : Given given (.unset a s)
  | remove {a : Address} (ha : Once Doc.IsAddress (given "addr") a) : Given given (.remove a)
  | sourceDisabled {s : Source} (hs : Once Doc.IsSource (given "source") s) : Given given (.sourceDisabled s)

/-- The names of the fields of a kind, in their order. -/
def HintKind.fieldOrder : HintKind → List String
  | hosts => ["addr", "source", "hosts"]
  | whois => ["addr", "info"]
  | unset => ["addr", "source"]
  | remove => ["addr"]
  | sourceDisabled => ["source"]

/-- **The document is a hint:** an object with its kind under `kind`, or an array with its kind in front. -/
inductive Json.Doc.IsHint : Doc → Hint → Prop
  | object {entries : Entries} {h : Hint} (hkind : entries.valuesOf "kind" = [.text h.kind.name])
      (hgiven : h.Given entries.valuesOf) : IsHint (.object entries) h
  | array {rest : Items} {h : Hint} (hlength : rest.toList.length ≤ h.kind.fieldOrder.length)
      (hgiven : h.Given (positional h.kind.fieldOrder rest.toList)) :
      IsHint (.array (.cons (.text h.kind.name) rest)) h

/-! ## Values of the fields -/

theorem Address.ofDoc_eq_ok_iff {d : Doc} {a : Address} : Address.ofDoc d = .ok a ↔ d.IsAddress a := by
  rw [Address.ofDoc, bind_eq_ok_iff]
  constructor
  · rintro ⟨text, htext, h⟩
    refine ⟨text, Doc.asText_eq_ok_iff.mp htext, ?_⟩
    split at h
    · next ha =>
      obtain rfl := Except.ok.inj h
      exact ha
    · cases h
  · rintro ⟨text, rfl, ha⟩
    refine ⟨text, Doc.asText_eq_ok_iff.mpr rfl, ?_⟩
    simp only [ha]

theorem Source.ofDoc_eq_ok_iff {d : Doc} {s : Source} : Source.ofDoc d = .ok s ↔ d.IsSource s := by
  rw [Source.ofDoc, bind_eq_ok_iff]
  constructor
  · rintro ⟨name, hname, h⟩
    cases hs : ofName? name with
    | none =>
      simp only [ofName, hs] at h
      cases h
    | some t =>
      simp only [ofName, hs] at h
      obtain rfl := Except.ok.inj h
      obtain ⟨hne, rfl⟩ := ofName?_eq_some_iff.mp hs
      exact ⟨hne, Doc.asText_eq_ok_iff.mp hname⟩
  · rintro ⟨hne, rfl⟩
    refine ⟨s.name, Doc.asText_eq_ok_iff.mpr rfl, ?_⟩
    simp only [ofName, ofName?_eq_some_iff.mpr ⟨hne, rfl⟩]

/-! ## The fields of a draft -/

/-- A value is present, and the document means it. -/
def Present {α : Type} (means : Doc → α → Prop) (d : Doc) (value : Option α) : Prop :=
  ∃ a, means d a ∧ value = some a

theorem atMostOnce_present {α : Type} {means : Doc → α → Prop} {ds : List Doc} {a : α} :
    AtMostOnce (Present means) none ds (some a) ↔ Once means ds a := by
  constructor
  · rintro (⟨-, h⟩ | ⟨d, rfl, b, hb, h⟩)
    · cases h
    · obtain rfl := Option.some.inj h
      exact ⟨d, rfl, hb⟩
  · rintro ⟨d, rfl, ha⟩
    exact .inr ⟨d, rfl, a, ha, rfl⟩

/-- A value that may be missing is given with its default for nothing. -/
theorem atMostOnce_getD {α : Type} {means : Doc → α → Prop} {default : α} {ds : List Doc} {a : α} :
    (∃ value, AtMostOnce (Present means) none ds value ∧ value.getD default = a) ↔
      AtMostOnce means default ds a := by
  constructor
  · rintro ⟨_, ⟨hds, rfl⟩ | ⟨d, hds, b, hb, rfl⟩, rfl⟩
    · exact .inl ⟨hds, rfl⟩
    · exact .inr ⟨d, hds, hb⟩
  · rintro (⟨hds, rfl⟩ | ⟨d, hds, ha⟩)
    · exact ⟨none, .inl ⟨hds, rfl⟩, rfl⟩
    · exact ⟨some a, .inr ⟨d, hds, a, ha, rfl⟩, rfl⟩

namespace Draft

/-- Sets the address. -/
def setAddr (value : Option Address) (draft : Draft) : Draft := { draft with addr := value }

/-- Sets the source. -/
def setSource (value : Option Source) (draft : Draft) : Draft := { draft with source := value }

/-- Sets the host names. -/
def setHosts (value : Option (List String)) (draft : Draft) : Draft := { draft with hosts := value }

/-- Sets the registration data. -/
def setInfo (value : Option Whois) (draft : Draft) : Draft := { draft with info := value }

/-- A field that decodes its document sets its part to a value that is present. -/
theorem sets_present {α : Type} {decode : Doc → Read α} {means : Doc → α → Prop}
    (hdecode : ∀ d a, decode d = .ok a ↔ means d a) (name : String) (set : Option α → Draft → Draft) :
    (FieldReader.mk name fun d draft => do .ok (set (some (← decode d)) draft)).Sets (Present means) set := by
  intro d r r'
  rw [sets_of_decode hdecode name fun a => set (some a)]
  constructor
  · rintro ⟨a, ha, rfl⟩
    exact ⟨some a, ⟨a, ha, rfl⟩, rfl⟩
  · rintro ⟨_, ⟨a, ha, rfl⟩, rfl⟩
    exact ⟨a, ha, rfl⟩

theorem sets_addrField : addrField.Sets (Present Doc.IsAddress) setAddr :=
  sets_present (fun _ _ => Address.ofDoc_eq_ok_iff) "addr" setAddr

theorem sets_sourceField : sourceField.Sets (Present Doc.IsSource) setSource :=
  sets_present (fun _ _ => Source.ofDoc_eq_ok_iff) "source" setSource

theorem sets_hostsField : hostsField.Sets (Present Doc.IsTexts) setHosts :=
  sets_present (fun _ _ => Doc.asTexts_eq_ok_iff) "hosts" setHosts

theorem sets_infoField : infoField.Sets (Present fun d w => Whois.layout.Reads .empty w d) setInfo :=
  sets_present (fun _ _ => Layout.read_eq_ok_iff Whois.pairwise_apart) "info" setInfo

/-- A field that must be there is given once. -/
theorem once_of_require {α : Type} {means : Doc → α → Prop} {ds : List Doc} {value : Option α} {a : α}
    {field : FieldReader Draft} (hgiven : AtMostOnce (Present means) none ds value)
    (h : require field value = .ok a) : Once means ds a := by
  cases value with
  | none => cases h
  | some b =>
    obtain rfl := Except.ok.inj h
    exact atMostOnce_present.mp hgiven

end Draft

namespace HintKind

open Draft

theorem pairwise_apart (kind : HintKind) : kind.layout.fields.Pairwise Apart := by
  have haddrSource : Apart addrField sourceField :=
    sets_addrField.apart sets_sourceField (by decide) fun _ _ _ => rfl
  have haddrHosts : Apart addrField hostsField :=
    sets_addrField.apart sets_hostsField (by decide) fun _ _ _ => rfl
  have haddrInfo : Apart addrField infoField := sets_addrField.apart sets_infoField (by decide) fun _ _ _ => rfl
  have hsourceHosts : Apart sourceField hostsField :=
    sets_sourceField.apart sets_hostsField (by decide) fun _ _ _ => rfl
  cases kind with
  | hosts => simp [layout, haddrSource, haddrHosts, hsourceHosts]
  | whois => simp [layout, haddrInfo]
  | unset => simp [layout, haddrSource]
  | remove => simp [layout]
  | sourceDisabled => simp [layout]

theorem fieldNames_layout (kind : HintKind) : fieldNames kind.layout.fields = kind.fieldOrder := by
  cases kind <;> rfl

section
variable {given : String → List Doc}

/-- Registration data given without a flaw fills its field if it has its form. -/
theorem once_info_iff (hsound : ∀ d ∈ given "info", d.Complete ∧ Spelled d.literals) {w : Whois} :
    Once (fun d w => Whois.layout.Reads .empty w d) (given "info") w ↔ Once Doc.IsWhois (given "info") w := by
  constructor
  · rintro ⟨d, hd, hreads⟩
    obtain ⟨hc, hl⟩ := hsound d (hd ▸ List.mem_singleton_self d)
    exact ⟨d, hd, (Whois.reads_iff hc hl).mp hreads⟩
  · rintro ⟨d, hd, hform⟩
    obtain ⟨hc, hl⟩ := hsound d (hd ▸ List.mem_singleton_self d)
    exact ⟨d, hd, (Whois.reads_iff hc hl).mpr hform⟩

/-- What a kind makes of its fields is given for them. -/
theorem given_of_finish (hsound : ∀ d ∈ given "info", d.Complete ∧ Spelled d.literals) {kind : HintKind}
    {draft : Draft} {h : Hint} (hfilled : Filled given kind.layout.fields {} draft)
    (hfinish : kind.finish draft = .ok h) : h.kind = kind ∧ h.Given given := by
  cases kind with
  | hosts =>
    obtain ⟨_, hfirst, _, hsecond, _, hthird, rfl⟩ := hfilled
    obtain ⟨addr, ha, rfl⟩ := (sets_addrField.fills_iff rfl).mp hfirst
    obtain ⟨source, hs, rfl⟩ := (sets_sourceField.fills_iff rfl).mp hsecond
    obtain ⟨names, hn, rfl⟩ := (sets_hostsField.fills_iff rfl).mp hthird
    obtain ⟨a, haddr, hfinish⟩ := bind_eq_ok_iff.mp hfinish
    obtain ⟨s, hsource, hfinish⟩ := bind_eq_ok_iff.mp hfinish
    obtain rfl := Except.ok.inj hfinish
    have hnames : AtMostOnce Doc.IsTexts [] (given "hosts") (names.getD []) := atMostOnce_getD.mp ⟨names, hn, rfl⟩
    exact ⟨rfl, .hosts (once_of_require ha haddr) (once_of_require hs hsource) hnames⟩
  | whois =>
    obtain ⟨_, hfirst, _, hsecond, rfl⟩ := hfilled
    obtain ⟨addr, ha, rfl⟩ := (sets_addrField.fills_iff rfl).mp hfirst
    obtain ⟨info, hw, rfl⟩ := (sets_infoField.fills_iff rfl).mp hsecond
    obtain ⟨a, haddr, hfinish⟩ := bind_eq_ok_iff.mp hfinish
    obtain ⟨w, hinfo, hfinish⟩ := bind_eq_ok_iff.mp hfinish
    obtain rfl := Except.ok.inj hfinish
    exact ⟨rfl, .whois (once_of_require ha haddr) ((once_info_iff hsound).mp (once_of_require hw hinfo))⟩
  | unset =>
    obtain ⟨_, hfirst, _, hsecond, rfl⟩ := hfilled
    obtain ⟨addr, ha, rfl⟩ := (sets_addrField.fills_iff rfl).mp hfirst
    obtain ⟨source, hs, rfl⟩ := (sets_sourceField.fills_iff rfl).mp hsecond
    obtain ⟨a, haddr, hfinish⟩ := bind_eq_ok_iff.mp hfinish
    obtain ⟨s, hsource, hfinish⟩ := bind_eq_ok_iff.mp hfinish
    obtain rfl := Except.ok.inj hfinish
    exact ⟨rfl, .unset (once_of_require ha haddr) (once_of_require hs hsource)⟩
  | remove =>
    obtain ⟨_, hfirst, rfl⟩ := hfilled
    obtain ⟨addr, ha, rfl⟩ := (sets_addrField.fills_iff rfl).mp hfirst
    obtain ⟨a, haddr, hfinish⟩ := bind_eq_ok_iff.mp hfinish
    obtain rfl := Except.ok.inj hfinish
    exact ⟨rfl, .remove (once_of_require ha haddr)⟩
  | sourceDisabled =>
    obtain ⟨_, hfirst, rfl⟩ := hfilled
    obtain ⟨source, hs, rfl⟩ := (sets_sourceField.fills_iff rfl).mp hfirst
    obtain ⟨s, hsource, hfinish⟩ := bind_eq_ok_iff.mp hfinish
    obtain rfl := Except.ok.inj hfinish
    exact ⟨rfl, .sourceDisabled (once_of_require hs hsource)⟩

/-- A kind makes a hint from its fields if they are given. -/
theorem finish_of_given (hsound : ∀ d ∈ given "info", d.Complete ∧ Spelled d.literals) {h : Hint}
    (hgiven : h.Given given) :
    ∃ draft, Filled given h.kind.layout.fields {} draft ∧ h.kind.finish draft = .ok h := by
  have haddr {r : Draft} {a : Address} (hr : setAddr none r = r) (ha : Once Doc.IsAddress (given "addr") a) :
      addrField.Fills (given "addr") r (setAddr (some a) r) :=
    (sets_addrField.fills_iff hr).mpr ⟨some a, atMostOnce_present.mpr ha, rfl⟩
  have hsource {r : Draft} {s : Source} (hr : setSource none r = r)
      (hs : Once Doc.IsSource (given "source") s) :
      sourceField.Fills (given "source") r (setSource (some s) r) :=
    (sets_sourceField.fills_iff hr).mpr ⟨some s, atMostOnce_present.mpr hs, rfl⟩
  cases hgiven with
  | hosts ha hs hn =>
    obtain ⟨names, hnames, rfl⟩ := atMostOnce_getD.mpr hn
    -- host names that are missing leave their part of the draft unset
    have hhosts {r : Draft} (hr : setHosts none r = r) :
        hostsField.Fills (given "hosts") r (setHosts names r) :=
      (sets_hostsField.fills_iff hr).mpr ⟨names, hnames, rfl⟩
    exact ⟨_, ⟨_, haddr rfl ha, _, hsource rfl hs, _, hhosts rfl, rfl⟩, rfl⟩
  | whois ha hw =>
    have hw := atMostOnce_present.mpr ((once_info_iff hsound).mpr hw)
    exact ⟨_, ⟨_, haddr rfl ha, _, (sets_infoField.fills_iff rfl).mpr ⟨_, hw, rfl⟩, rfl⟩, rfl⟩
  | unset ha hs => exact ⟨_, ⟨_, haddr rfl ha, _, hsource rfl hs, rfl⟩, rfl⟩
  | remove ha => exact ⟨_, ⟨_, haddr rfl ha, rfl⟩, rfl⟩
  | sourceDisabled hs => exact ⟨_, ⟨_, hsource rfl hs, rfl⟩, rfl⟩

end

end HintKind

end ClientRoster
