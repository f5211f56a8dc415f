import ClientRoster.Json.ReadError

/-!
# `ClientRoster.Json.Decode` — plain values from documents

Each reader looks at one document and gives its value, or the first thing that is wrong with it: a fault where the
document stands, else its type. An array or object of another type is refused at its bracket, whatever it holds.
-/

namespace ClientRoster.Json

/-- A result of reading. -/
abbrev Read (α : Type) := Except ReadError α

namespace ReadError

/-- The text of a document is malformed. -/
def malformed : ReadError := flaw .malformed

end ReadError

/-- Goes on unless there is a flaw. -/
def requireSound : Option Flaw → Read Unit
  | none => .ok ()
  | some flaw => .error (.flaw flaw)

/-- The text of a complete literal that is kept. -/
def Literal.text? : Literal → Read String
  | plain text => .ok (String.ofList text)
  | unpaired => .error .malformed

namespace Doc

/-- What a document is, for a message. -/
def found : Doc → Read Found
  | null => .ok .null
  | bool b => .ok (.bool b)
  | numeral n => match n.value? with
    | some value => .ok (.number value)
    | none => .error .malformed
  | literal l => (l.text?).map .text
  | array _ => .ok .sequence
  | object _ => .ok .map
  | broken fault => .error (.flaw fault.kept)

/-- The error of a document that is not of the expected type. -/
def mismatch {α : Type} (expected : String) (d : Doc) : Read α := do
  .error (.misfit (.wrongType (← d.found) expected))

/-- Reads a text. -/
def asText (expected : String) : Doc → Read String
  | literal l => l.text?
  | d => d.mismatch expected

/-- Reads a text or the absence of one. -/
def asOptionalText : Doc → Read (Option String)
  | null => .ok none
  | d => (d.asText "a string").map some

/-- Reads a truth value. -/
def asBool : Doc → Read Bool
  | bool b => .ok b
  | d => d.mismatch "a boolean"

/-- Reads a count of at most 64 bits. -/
def asCount (d : Doc) : Read Nat := do
  match d with
  | numeral _ => match ← d.found with
    | .number (.integer n) =>
      if 0 ≤ n then .ok n.toNat else .error (.misfit (.wrongValue (.number (.integer n)) "usize"))
    | found => .error (.misfit (.wrongType found "usize"))
  | d => d.mismatch "usize"

end Doc

/-- Reads each item as a text, up to the bracket. -/
def Items.asTexts : Items → Read (List String)
  | closed => .ok []
  | cut fault => .error (.flaw fault.kept)
  | cons item rest => do
    let text ← item.asText "a string"
    let texts ← rest.asTexts
    .ok (text :: texts)

/-- Reads an array of texts. -/
def Doc.asTexts : Doc → Read (List String)
  | array items => items.asTexts
  | d => d.mismatch "a sequence"

/-- Reads a text as a value with nothing behind it. What follows the value is looked at last. -/
def readText {α : Type} (decode : Doc → Read α) (text : List Char) : Read α := do
  let reading := readDoc text
  let value ← decode reading.doc
  if reading.trailing then .error .malformed else .ok value

end ClientRoster.Json
