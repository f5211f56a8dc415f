import ClientRoster.Json.Token

/-!
# `ClientRoster.Json.Doc` — documents, read as far as they go

A text is read from the left into a tree that says everything which can be known of it: where reading stops, the
tree holds the fault in the place of what is missing. So reading never fails, and what a text is wrong in becomes
a question about its tree. The two disciplines of the library ask it differently: one decodes from the left and
meets a fault where it stands, the other asks for the first fault of the whole tree before it decodes anything.

## Contents
- `Doc`, with `Items` and `Entries` for what stands between brackets and between braces.
- `Doc.chars`: the compact written form.
- `Doc.flaw?`: the first flaw, for a reader who keeps the document or skips it (`Care`).
- `Number`s, texts and shapes as a message names them are in `ClientRoster.Json.ReadError`.
-/

namespace ClientRoster.Json

mutual

/-- A document, as far as it could be read. -/
inductive Doc
  | null
  | bool (value : Bool)
  | numeral (n : Numeral)
  | literal (l : Literal)
  | array (items : Items)
  | object (entries : Entries)
  /-- No document could be read here. -/
  | broken (fault : Fault)

/-- The items of an array, up to its bracket or to where reading stops. -/
inductive Items
  | closed
  | cut (fault : Fault)
  | cons (item : Doc) (rest : Items)

/-- The entries of an object, up to its brace or to where reading stops. -/
inductive Entries
  | closed
  | cut (fault : Fault)
  | cons (key : Literal) (value : Doc) (rest : Entries)

end

namespace Items

/-- The items of a complete array. -/
def ofList (items : List Doc) : Items := items.foldr .cons .closed

/-- Items in front of others; the list holds the last one first. -/
def after (before : List Doc) (rest : Items) : Items := before.foldl (fun rest d => .cons d rest) rest

/-- How many items there are. -/
def count : Items → Nat
  | closed | cut _ => 0
  | cons _ rest => rest.count + 1

end Items

namespace Entries

/-- The entries of a complete object. -/
def ofList (entries : List (String × Doc)) : Entries :=
  entries.foldr (fun e rest => .cons (.plain e.1.toList) e.2 rest) .closed

/-- Entries in front of others; the list holds the last one first. -/
def after (before : List (Literal × Doc)) (rest : Entries) : Entries :=
  before.foldl (fun rest e => .cons e.1 e.2 rest) rest

end Entries

namespace Doc

/-- A text as a document. -/
def text (s : String) : Doc := literal (.plain s.toList)

/-- A list of documents as a document. -/
def list (items : List Doc) : Doc := array (Items.ofList items)

/-- Named documents as a document. -/
def record (entries : List (String × Doc)) : Doc := object (Entries.ofList entries)

/-- A natural number as a document. -/
def nat (n : Nat) : Doc := numeral (Numeral.ofNat n)

end Doc

/-! ## Writing -/

/-- The written form of a literal. -/
def Literal.chars : Literal → List Char
  | plain text => literalChars text
  | unpaired => []

mutual

/-- The compact written form of a document. -/
def Doc.chars : Doc → List Char
  | .null => ['n', 'u', 'l', 'l']
  | .bool true => ['t', 'r', 'u', 'e']
  | .bool false => ['f', 'a', 'l', 's', 'e']
  | .numeral n => n.chars
  | .literal l => l.chars
  | .array items => '[' :: items.chars true
  | .object entries => '{' :: entries.chars true
  | .broken _ => []

/-- Items with a comma between each two, and the bracket that closes them. -/
def Items.chars (first : Bool) : Items → List Char
  | .closed => [']']
  | .cut _ => []
  | .cons item rest => (if first then [] else [',']) ++ item.chars ++ rest.chars false

/-- Entries with a comma between each two, and the brace that closes them. -/
def Entries.chars (first : Bool) : Entries → List Char
  | .closed => ['}']
  | .cut _ => []
  | .cons key value rest =>
    (if first then [] else [',']) ++ key.chars ++ ':' :: value.chars ++ rest.chars false

end

/-- The compact written form of a document, as a text. -/
def Doc.render (d : Doc) : String := String.ofList d.chars

/-! ## The first flaw -/

/-- How closely a reader looks. -/
inductive Care
  /-- The reader skips the document: only its form counts. -/
  | skipped
  /-- The reader keeps the document: its texts and numbers must exist, and no more than `levels` arrays and
  objects may stand within each other. -/
  | kept (levels : Nat)
  deriving DecidableEq, Repr

/-- The flaw that a reader sees at a fault. -/
def Fault.flaw (fault : Fault) : Care → Flaw
  | .skipped => fault.skipped
  | .kept _ => fault.kept

/-- The flaw of a complete literal, if it has one. -/
def Literal.flaw? : Literal → Care → Option Flaw
  | unpaired, .kept _ => some .malformed
  | _, _ => none

/-- The flaw of a numeral, if it has one. -/
def Numeral.flaw? (n : Numeral) : Care → Option Flaw
  | .skipped => none
  | .kept _ => if n.value?.isNone then some .malformed else none

mutual

/-- The first flaw of a document, from the left. -/
def Doc.flaw? (care : Care) : Doc → Option Flaw
  | .null | .bool _ => none
  | .numeral n => n.flaw? care
  | .literal l => l.flaw? care
  | .array items => match care with
    | .skipped => items.flaw? .skipped
    | .kept 0 => some .malformed
    | .kept (levels + 1) => items.flaw? (.kept levels)
  | .object entries => match care with
    | .skipped => entries.flaw? .skipped
    | .kept 0 => some .malformed
    | .kept (levels + 1) => entries.flaw? (.kept levels)
  | .broken fault => some (fault.flaw care)

/-- The first flaw of some items. -/
def Items.flaw? (care : Care) : Items → Option Flaw
  | .closed => none
  | .cut fault => some (fault.flaw care)
  | .cons item rest => (item.flaw? care).or (rest.flaw? care)

/-- The first flaw of some entries. -/
def Entries.flaw? (care : Care) : Entries → Option Flaw
  | .closed => none
  | .cut fault => some (fault.flaw care)
  | .cons key value rest => (key.flaw? care).or ((value.flaw? care).or (rest.flaw? care))

end

end ClientRoster.Json
