import ClientRoster.Hint
import ClientRoster.Client.Json
import ClientRoster.Text.Blank

/-!
# `ClientRoster.Hint.Json` — hints in documents

A hint is an object whose key `kind` says which hint it is, or an array whose first item does. All other keys, or
items, are the fields of that kind. The document is looked through from the left first: a kind is judged where it
stands, everything else only has to be sound. Only then are the fields read.

## Contents
- `HintKind`: names, fields, and the hint that a `Draft` with these fields is.
- `Hint.toDoc`, `Hint.ofDoc`, `Hint.ofLine`.
-/

namespace ClientRoster

open Json

/-- Which hint it is. -/
inductive HintKind
  | hosts
  | whois
  | unset
  | remove
  | sourceDisabled
  deriving DecidableEq, Repr

/-- The fields of a hint, as far as they have been read. -/
structure Draft where
  addr : Option Address := none
  source : Option Source := none
  hosts : Option (List String) := none
  info : Option Whois := none
  deriving DecidableEq, Repr

namespace HintKind

/-- All kinds, in the order in which a message names them. -/
def all : List HintKind := [hosts, whois, unset, remove, sourceDisabled]

/-- The name of a kind in documents. -/
def name : HintKind → String
  | hosts => "hosts"
  | whois => "whois"
  | unset => "unset"
  | remove => "remove"
  | sourceDisabled => "source_disabled"

/-- What a message calls a hint of this kind. -/
def phrase : HintKind → String
  | hosts => "struct variant HintEvent::Hosts"
  | whois => "struct variant HintEvent::Whois"
  | unset => "struct variant HintEvent::Unset"
  | remove => "struct variant HintEvent::Remove"
  | sourceDisabled => "struct variant HintEvent::SourceDisabled"

/-- The kind with a name. -/
def ofName? (text : String) : Option HintKind := all.find? fun k => decide (k.name = text)

/-- Reads a kind from a document. -/
def ofDoc (d : Doc) : Read HintKind := do
  let text ← d.asText "variant identifier"
  match ofName? text with
  | some kind => .ok kind
  | none => .error (.misfit (.unknownVariant text (all.map name)))

end HintKind

/-! ## Fields -/

/-- Reads an address from a document. -/
def Address.ofDoc (d : Doc) : Read Address := do
  match Address.ofText? (← d.asText "IP address") with
  | some a => .ok a
  | none => .error (.misfit (.refused "invalid IP address syntax"))

namespace Draft

/-- The field that holds the address. -/
def addrField : FieldReader Draft :=
  ⟨"addr", fun d draft => do .ok { draft with addr := some (← Address.ofDoc d) }⟩

/-- The field that holds the source. -/
def sourceField : FieldReader Draft :=
  ⟨"source", fun d draft => do .ok { draft with source := some (← Source.ofDoc d) }⟩

/-- The field that holds host names. -/
def hostsField : FieldReader Draft := ⟨"hosts", fun d draft => do .ok { draft with hosts := some (← d.asTexts) }⟩

/-- The field that holds registration data. -/
def infoField : FieldReader Draft :=
  ⟨"info", fun d draft => do .ok { draft with info := some (← Whois.layout.readWhole .empty d) }⟩

/-- A field that must be there. -/
def require {α : Type} (field : FieldReader Draft) : Option α → Except String α
  | some value => .ok value
  | none => .error field.name

end Draft

namespace HintKind

open Draft

/-- The fields of a kind, in their order. -/
def layout (kind : HintKind) : Layout Draft :=
  ⟨kind.phrase, match kind with
    | hosts => [addrField, sourceField, hostsField]
    | whois => [addrField, infoField]
    | unset => [addrField, sourceField]
    | remove => [addrField]
    | sourceDisabled => [sourceField]⟩

/-- The hint of a kind from its fields, or the name of the first field that is missing. Host names may be missing:
then there are none. -/
def finish (draft : Draft) : HintKind → Except String Hint
  | hosts => do
    .ok (.hosts (← require addrField draft.addr) (← require sourceField draft.source) (draft.hosts.getD []))
  | whois => do .ok (.whois (← require addrField draft.addr) (← require infoField draft.info))
  | unset => do .ok (.unset (← require addrField draft.addr) (← require sourceField draft.source))
  | remove => do .ok (.remove (← require addrField draft.addr))
  | sourceDisabled => do .ok (.sourceDisabled (← require sourceField draft.source))

end HintKind

namespace Hint

/-! ## Writing -/

/-- The kind of a hint. -/
def kind : Hint → HintKind
  | hosts _ _ _ => .hosts
  | whois _ _ => .whois
  | unset _ _ => .unset
  | remove _ => .remove
  | sourceDisabled _ => .sourceDisabled

/-- The fields of a hint as documents, in their order. -/
def fieldDocs : Hint → List (String × Doc)
  | hosts a s names => [("addr", .text a.text), ("source", s.toDoc), ("hosts", Client.hostsDoc names)]
  | whois a entry => [("addr", .text a.text), ("info", entry.toDoc)]
  | unset a s => [("addr", .text a.text), ("source", s.toDoc)]
  | remove a => [("addr", .text a.text)]
  | sourceDisabled s => [("source", s.toDoc)]

/-- A hint as a document. -/
def toDoc (h : Hint) : Doc := .record (("kind", .text h.kind.name) :: h.fieldDocs)

/-! ## Reading -/

/-- How many arrays and objects may stand within the outermost one. -/
def innerLevels : Nat := 126

/-- Looks through the entries of an object: the kind is judged where it stands and may come once, every other
value has to be sound. -/
def kindOfEntries (seen : Option HintKind) : Entries → Read HintKind
  | .closed => match seen with
    | some kind => .ok kind
    | none => .error (.misfit (.missing "kind"))
  | .cut fault => .error (.flaw fault.kept)
  | .cons key value rest => do
    if (← key.text?) = "kind" then
      if seen.isSome then .error (.misfit (.repeated "kind"))
      else kindOfEntries (some (← HintKind.ofDoc value)) rest
    else
      requireSound (value.flaw? (.kept innerLevels))
      kindOfEntries seen rest

/-- Reads the fields from an object. -/
def ofEntries (kind : HintKind) (entries : Entries) : Read Hint := do
  let draft ← readEntries kind.layout.fields [] entries {}
  match kind.finish draft with
  | .ok hint => .ok hint
  | .error field => .error (.misfit (.missing field))

/-- Reads the fields from the items that follow the kind. -/
def ofItems (kind : HintKind) (items : Items) : Read Hint := do
  let draft ← kind.layout.readWhole {} (.array items)
  match kind.finish draft with
  | .ok hint => .ok hint
  | .error _ => .error (.misfit (.tooFew items.count kind.phrase kind.layout.fields.length))

/-- Reads a hint from a document. -/
def ofDoc : Doc → Read Hint
  | .object entries => do
    let kind ← kindOfEntries none entries
    ofEntries kind entries
  | .array .closed => .error (.misfit (.missing "kind"))
  | .array (.cut fault) => .error (.flaw fault.kept)
  | .array (.cons first rest) => do
    let kind ← HintKind.ofDoc first
    requireSound (rest.flaw? (.kept innerLevels))
    ofItems kind rest
  | d => d.mismatch "internally tagged enum HintEvent"

/-- Reads a line. White space at its ends does not count, and a line of nothing else holds no hint. -/
def ofLine (line : String) : Read (Option Hint) :=
  match Text.trim line.toList with
  | [] => .ok none
  | text => (readText ofDoc text).map some

end Hint

end ClientRoster
