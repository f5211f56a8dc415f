import ClientRoster.Proofs.Json.Fields
import ClientRoster.Whois.Json

/-!
# `ClientRoster.Proofs.Whois.Form` — which documents are registration data

Each of the three texts may be given once, as a text or as `null`, and is unknown when it is not given. An object gives
them by name, with anything else among them, and an array of at most three items by position.

## Contents
- `Doc.IsWhois`: the form, for documents without a flaw.
- **`Whois.reads_iff`: registration data is read from the documents of this form**, and it is written in it
  (`isWhois_toDoc`).
-/

namespace ClientRoster

open Json

/-- What is given under the three names, or at their places. -/
structure Whois.Given (given : String → List Doc) (w : Whois) : Prop where
  city : AtMostOnce Doc.IsOptionalText none (given "city") w.city
  country : AtMostOnce Doc.IsOptionalText none (given "country") w.country
  orgname : AtMostOnce Doc.IsOptionalText none (given "orgname") w.orgname

/-- The document is registration data. -/
inductive Json.Doc.IsWhois : Doc → Whois → Prop
  | object {entries : Entries} {w : Whois} (h : w.Given entries.valuesOf) : IsWhois (.object entries) w
  | array {items : Items} {w : Whois} (hlength : items.toList.length ≤ 3)
      (h : w.Given (positional ["city", "country", "orgname"] items.toList)) : IsWhois (.array items) w

namespace Whois

/-! ## The fields -/

/-- Sets the city. -/
def setCity (value : Option String) (w : Whois) : Whois := { w with city := value }

/-- Sets the country. -/
def setCountry (value : Option String) (w : Whois) : Whois := { w with country := value }

/-- Sets the name of the organisation. -/
def setOrgname (value : Option String) (w : Whois) : Whois := { w with orgname := value }

/-- A field of the layout, which reads a text that may be unknown. -/
def textField (name : String) (set : Option String → Whois → Whois) : FieldReader Whois :=
  ⟨name, fun d w => do .ok (set (← d.asOptionalText) w)⟩

theorem fields_layout : layout.fields =
    [textField "city" setCity, textField "country" setCountry, textField "orgname" setOrgname] := rfl

theorem sets_textField (name : String) (set : Option String → Whois → Whois) :
    (textField name set).Sets Doc.IsOptionalText set :=
  sets_of_decode (fun _ _ => Doc.asOptionalText_eq_ok_iff) name set

theorem pairwise_apart : layout.fields.Pairwise Apart := by
  have hcity := sets_textField "city" setCity
  have hcountry := sets_textField "country" setCountry
  have horgname := sets_textField "orgname" setOrgname
  rw [fields_layout]
  refine .cons ?_ (.cons ?_ (.cons ?_ .nil))
  · rintro g (_ | ⟨_, _ | ⟨_, ⟨⟩⟩⟩)
    · exact hcity.apart hcountry (by decide) fun _ _ _ => rfl
    · exact hcity.apart horgname (by decide) fun _ _ _ => rfl
  · rintro g (_ | ⟨_, ⟨⟩⟩)
    exact hcountry.apart horgname (by decide) fun _ _ _ => rfl
  · rintro g ⟨⟩

theorem filled_iff {given : String → List Doc} {w : Whois} : Filled given layout.fields .empty w ↔ w.Given given := by
  rw [fields_layout]
  constructor
  · rintro ⟨_, hfirst, _, hsecond, _, hthird, rfl⟩
    obtain ⟨city, hcity, rfl⟩ := ((sets_textField "city" setCity).fills_iff rfl).mp hfirst
    obtain ⟨country, hcountry, rfl⟩ := ((sets_textField "country" setCountry).fills_iff rfl).mp hsecond
    obtain ⟨orgname, horgname, rfl⟩ := ((sets_textField "orgname" setOrgname).fills_iff rfl).mp hthird
    exact ⟨hcity, hcountry, horgname⟩
  · rintro ⟨hcity, hcountry, horgname⟩
    refine ⟨_, ((sets_textField "city" setCity).fills_iff rfl).mpr ⟨w.city, hcity, rfl⟩, ?_⟩
    refine ⟨_, ((sets_textField "country" setCountry).fills_iff rfl).mpr ⟨w.country, hcountry, rfl⟩, ?_⟩
    exact ⟨_, ((sets_textField "orgname" setOrgname).fills_iff rfl).mpr ⟨w.orgname, horgname, rfl⟩, rfl⟩

/-! ## The form -/

/-- **Registration data is read from the documents of its form.** -/
theorem reads_iff {d : Doc} (hc : d.Complete) (hl : Spelled d.literals) {w : Whois} :
    layout.Reads .empty w d ↔ d.IsWhois w := by
  constructor
  · rintro (⟨-, hfilled⟩ | ⟨-, hlength, hfilled⟩)
    · exact .object (filled_iff.mp hfilled)
    · exact .array hlength (filled_iff.mp hfilled)
  · rintro (hgiven | ⟨hlength, hgiven⟩)
    · exact .object (Entries.readable hc hl _) (filled_iff.mpr hgiven)
    · exact .array (Items.Complete.closed hc) hlength (filled_iff.mpr hgiven)

/-- A text that may be unknown is given as it is written, or not at all. -/
theorem atMostOnce_written (value : Option String) :
    AtMostOnce Doc.IsOptionalText none (value.map Doc.text).toList value := by
  cases value with
  | none => exact .inl ⟨rfl, rfl⟩
  | some s => exact .inr ⟨.text s, rfl, .text s⟩

/-- Registration data is written in its form. -/
theorem isWhois_toDoc (w : Whois) : w.toDoc.IsWhois w := by
  have hgiven := valuesOf_ofList_filterMap [("city", w.city), ("country", w.country), ("orgname", w.orgname)] Doc.text
  refine .object ⟨?_, ?_, ?_⟩
  · rw [hgiven]
    simpa using atMostOnce_written w.city
  · rw [hgiven]
    simpa using atMostOnce_written w.country
  · rw [hgiven]
    simpa using atMostOnce_written w.orgname

end Whois

end ClientRoster
