import ClientRoster.Settings
import ClientRoster.Json.Layout

/-!
# `ClientRoster.Settings.Json` — settings in documents

Settings are read over the defaults: what a document leaves out keeps its default.
-/

namespace ClientRoster

open Json

namespace SourcePolicy

/-- A policy as a document. -/
def toDoc (p : SourcePolicy) : Doc :=
  .record [("whois", .bool p.whois), ("arp", .bool p.arp), ("rdns", .bool p.rdns), ("dhcp", .bool p.dhcp),
    ("hosts", .bool p.hosts)]

/-- How documents hold a policy. -/
def layout : Layout SourcePolicy where
  expected := "struct RuntimeSourcesConfig"
  fields := [
    ⟨"whois", fun d p => do .ok { p with whois := ← d.asBool }⟩,
    ⟨"arp", fun d p => do .ok { p with arp := ← d.asBool }⟩,
    ⟨"rdns", fun d p => do .ok { p with rdns := ← d.asBool }⟩,
    ⟨"dhcp", fun d p => do .ok { p with dhcp := ← d.asBool }⟩,
    ⟨"hosts", fun d p => do .ok { p with hosts := ← d.asBool }⟩]

end SourcePolicy

namespace Settings

/-- How documents hold the settings of the notices. -/
def engineLayout : Layout Nat where
  expected := "struct EngineConfig"
  fields := [⟨"event_channel_capacity", fun d _ => d.asCount⟩]

/-- Settings as a document. -/
def toDoc (s : Settings) : Doc :=
  .record [("runtime_sources", s.sources.toDoc),
    ("engine", .record [("event_channel_capacity", .nat s.capacity)])]

/-- How documents hold settings. A part that is given starts from its own defaults. -/
def layout : Layout Settings where
  expected := "struct ClientsConfig"
  fields := [
    ⟨"runtime_sources", fun d s => do .ok { s with sources := ← SourcePolicy.layout.readInPlace {} d }⟩,
    ⟨"engine", fun d s => do .ok { s with capacity := ← engineLayout.readInPlace ({} : Settings).capacity d }⟩]

/-- Reads settings. -/
def ofText (text : String) : Read Settings := readText (layout.readInPlace {}) text.toList

end Settings

end ClientRoster
