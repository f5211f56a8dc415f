import ClientRoster.Proofs.Json.Rendering
import ClientRoster.Proofs.Settings.Form

/-!
# `ClientRoster.Proofs.Settings.Text` — settings are read over the defaults and written in full

A text says of some settings what they are, and the others have their defaults. Written settings leave nothing out, so
they are read as they are, whatever the defaults. A text that is read and written is therefore in its normal form, which
is read and written as itself.

## Contents
- `ofText_eq_ok_iff`: which texts are read as settings.
- `isSettings_toDoc`, `ofText_render`: written settings are read back.
- **`ofText_over_defaults`**: reading and writing together.
-/

namespace ClientRoster

open Json

namespace Settings

/-! ## Reading -/

/-- **A text is read as settings if it is one of a document of their form.** -/
theorem ofText_eq_ok_iff {text : String} {s : Settings} :
    ofText text = .ok s ↔ ∃ d : Doc, d.IsText text.toList ∧ d.IsSettings s := by
  rw [ofText, readText_eq_ok_iff fun d s h => (readInPlace_eq_ok_iff.mp h).1]
  refine exists_congr fun d => and_congr_right fun htext => ?_
  rw [readInPlace_eq_ok_iff, and_iff_right htext.complete]

/-- A capacity that has been read has at most 64 bits. -/
theorem capacity_lt_of_isSettings {d : Doc} {s : Settings} (h : d.IsSettings s) : s.capacity < UInt64.size := by
  rcases h.capacity with ⟨-, hdefault⟩ | ⟨-, -, -, -, -, hlt⟩
  · rw [hdefault]
    decide
  · exact hlt

theorem capacity_lt_of_ofText {text : String} {s : Settings} (h : ofText text = .ok s) :
    s.capacity < UInt64.size := by
  obtain ⟨d, -, hform⟩ := ofText_eq_ok_iff.mp h
  exact capacity_lt_of_isSettings hform

/-! ## Writing -/

theorem plain_toDoc (s : Settings) : s.toDoc.Plain := by
  have hsources : s.sources.toDoc.Plain := plain_record (by simp [Doc.Plain])
  have hengine : (Doc.record [("event_channel_capacity", .nat s.capacity)]).Plain :=
    plain_record (by simp [plain_nat])
  exact plain_record (by simp [hsources, hengine])

/-- A written policy gives for each switch what it is. -/
theorem given_switch (p : SourcePolicy) {source : Source} (h : source ≠ .persistent) :
    p.toDoc.given SourcePolicy.switchNames (SourcePolicy.switchName source) = [.bool (p.accepts source)] := by
  apply given_record
  · show SourcePolicy.switchNames.Nodup
    decide
  · cases source with
    | persistent => exact absurd rfl h
    | _ => simp [SourcePolicy.switchName, SourcePolicy.accepts]

/-- A written capacity is given as it is. -/
theorem given_capacity (n : Nat) : (Doc.record [("event_channel_capacity", .nat n)]).given engineNames
    "event_channel_capacity" = [.nat n] := by
  apply given_record
  · show engineNames.Nodup
    decide
  · exact List.mem_cons_self

/-- Written settings give both parts. -/
theorem given_parts (s : Settings) : s.toDoc.given partNames "runtime_sources" = [s.sources.toDoc] ∧
    s.toDoc.given partNames "engine" = [.record [("event_channel_capacity", .nat s.capacity)]] := by
  have hnodup : partNames.Nodup := by decide
  constructor
  · apply given_record
    · exact hnodup
    · exact List.mem_cons_self
  · apply given_record
    · exact hnodup
    · exact List.mem_cons_of_mem _ List.mem_cons_self

/-- Settings are written in their form, with each of them given. -/
theorem isSettings_toDoc {s : Settings} (h : s.capacity < UInt64.size) : s.toDoc.IsSettings s := by
  obtain ⟨hsources, hengine⟩ := given_parts s
  constructor
  case parts => exact isRecord_record _ _
  case sources => exact .inr ⟨_, hsources, isRecord_record _ _⟩
  case engine => exact .inr ⟨_, hengine, isRecord_record _ _⟩
  case accepts =>
    intro source hsource
    rw [switchDocs, hsources, givenIn_singleton, given_switch s.sources hsource]
    exact .inr ⟨_, rfl, rfl⟩
  case capacity =>
    rw [capacityDocs, hengine, givenIn_singleton, given_capacity]
    exact .inr ⟨_, rfl, Doc.isCount_nat h⟩

/-- **Written settings are read back.** -/
theorem ofText_render {s : Settings} (h : s.capacity < UInt64.size) : ofText s.toDoc.render = .ok s := by
  have htext : s.toDoc.IsText s.toDoc.render.toList := by
    rw [Doc.render, String.toList_ofList]
    exact isText_chars (plain_toDoc s)
  exact ofText_eq_ok_iff.mpr ⟨s.toDoc, htext, isSettings_toDoc h⟩

/-! ## Reading and writing -/

/-- **Settings are read over the defaults, and writing them loses nothing.** -/
theorem ofText_over_defaults (text : String) (s : Settings) :
    (ofText text = .ok s ↔ ∃ d : Doc, d.IsText text.toList ∧ d.IsSettings s) ∧
    (s.capacity < UInt64.size → ofText s.toDoc.render = .ok s) ∧
    (ofText text = .ok s → ∃ again, ofText s.toDoc.render = .ok again ∧ again.toDoc.render = s.toDoc.render) := by
  refine ⟨ofText_eq_ok_iff, ofText_render, ?_⟩
  intro h
  exact ⟨s, ofText_render (capacity_lt_of_ofText h), rfl⟩

/-- Settings as an array that ends after the sources, which are an object with one switch and another entry. -/
def cutShortDoc : Doc := .list [.record [("colour", .null), ("dhcp", .bool false)]]

/-- A text of this document. -/
def cutShortText : String := "[\x7b\"colour\":null,\"dhcp\":false\x7d]"

theorem ofText_over_defaults_cut_short :
    ofText cutShortText = .ok { sources := { dhcp := false } } ∧
    ofText (toDoc { sources := { dhcp := false } }).render = .ok { sources := { dhcp := false } } ∧
    ∃ again, ofText (toDoc { sources := { dhcp := false } }).render = .ok again ∧
      again.toDoc.render = (toDoc { sources := { dhcp := false } }).render := by
  have htext : cutShortDoc.IsText cutShortText.toList := by
    have hchars : cutShortText.toList = cutShortDoc.chars := by decide
    have hplain : cutShortDoc.Plain := by
      apply plain_list
      rintro d (_ | ⟨_, ⟨⟩⟩)
      exact plain_record (by simp [Doc.Plain])
    exact hchars ▸ isText_chars hplain
  have hform : cutShortDoc.IsSettings { sources := { dhcp := false } } := by
    refine ⟨?_, .inr ⟨_, rfl, isRecord_record _ _⟩, .inl rfl, ?_, .inl ⟨rfl, rfl⟩⟩
    · show 1 ≤ 2
      decide
    · intro source hsource
      cases source with
      | persistent => exact absurd rfl hsource
      | dhcp => exact .inr ⟨.bool false, rfl, rfl⟩
      | _ => exact .inl ⟨rfl, rfl⟩
  obtain ⟨hiff, hwritten, hagain⟩ := ofText_over_defaults cutShortText { sources := { dhcp := false } }
  have hread := hiff.mpr ⟨cutShortDoc, htext, hform⟩
  exact ⟨hread, hwritten (by decide), hagain hread⟩

end Settings

end ClientRoster
