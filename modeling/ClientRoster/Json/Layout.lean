import ClientRoster.Json.Decode

/-!
# `ClientRoster.Json.Layout` — records in documents

A record has named fields in a fixed order. A document gives it as an object, with the fields in any order and
others among them, or as an array of the fields in their own order, which may end early. What a document does not
give stays as it was at the start.

## Contents
- `FieldReader`, `Layout`.
- `readEntries`, `readItems`, `Layout.read`, and its two uses `Layout.readInPlace` and `Layout.readWhole`.
-/

namespace ClientRoster.Json

/-- A field of a record that is put together in `σ`. -/
structure FieldReader (σ : Type) where
  name : String
  /-- Reads the value of the field and puts it into the record. -/
  put : Doc → σ → Read σ

/-- A record type, as documents hold it. -/
structure Layout (σ : Type) where
  /-- What a message calls the record. -/
  expected : String
  fields : List (FieldReader σ)

/-- The names of some fields. -/
def fieldNames {σ : Type} (fields : List (FieldReader σ)) : List String := fields.map FieldReader.name

/-- Reads entries from the left into a record. A field may come once; what names no field is skipped. -/
def readEntries {σ : Type} (fields : List (FieldReader σ)) (seen : List String) : Entries → σ → Read σ
  | .closed, record => .ok record
  | .cut fault, _ => .error (.flaw fault.kept)
  | .cons key value rest, record => do
    let name ← key.text?
    match fields.find? fun f => decide (f.name = name) with
    | none =>
      requireSound (value.flaw? .skipped)
      readEntries fields seen rest record
    | some field =>
      if name ∈ seen then .error (.misfit (.repeated name))
      else
        let record ← field.put value record
        readEntries fields (name :: seen) rest record

/-- Reads items as the fields in their order; `surplus` is the error of one item too many. -/
def readItems {σ : Type} (surplus : ReadError) : List (FieldReader σ) → Items → σ → Read σ
  | _, .closed, record => .ok record
  | _, .cut fault, _ => .error (.flaw fault.kept)
  | [], .cons _ _, _ => .error surplus
  | field :: fields, .cons item rest, record => do
    let record ← field.put item record
    readItems surplus fields rest record

/-- Reads a document as a record, starting from what holds when the document is silent. -/
def Layout.read {σ : Type} (layout : Layout σ) (surplus : ReadError) (start : σ) : Doc → Read σ
  | .object entries => readEntries layout.fields [] entries start
  | .array items => readItems surplus layout.fields items start
  | d => d.mismatch layout.expected

/-- Reads a record while its text is being read: an item too many is a flaw of the text. -/
def Layout.readInPlace {σ : Type} (layout : Layout σ) (start : σ) (d : Doc) : Read σ :=
  layout.read .malformed start d

/-- The error of an array that is complete and has items beyond the fields. -/
def Layout.surplus {σ : Type} (layout : Layout σ) : Doc → ReadError
  | .array items => .misfit (.tooMany items.count layout.fields.length)
  | _ => .malformed

/-- Reads a record from a document that is known whole: an item too many is a misfit. -/
def Layout.readWhole {σ : Type} (layout : Layout σ) (start : σ) (d : Doc) : Read σ :=
  layout.read (layout.surplus d) start d

end ClientRoster.Json
