import ClientRoster.Json.Doc

/-!
# `ClientRoster.Proofs.Json.Grammar` — the written forms of a document

The grammar of documents as relations between what is written and the characters that write it. Nothing here reads a
text: a relation says which texts are forms of a document, and a document has many of them. White space may stand
between any two tokens, a character may be escaped or not, and there are several ways to write an exponent.

## Contents
- `Piece.Written`, `Spells`, `Literal.Written`: literals. A literal that spells no text is a literal all the same.
- `Numeral.Written`: numerals.
- `Doc.Written`, `Items.Written`, `Entries.Written`: documents, the items up to the closing bracket and the entries up
  to the closing brace.
- `Doc.IsText`: a document with white space around it.
-/

namespace ClientRoster.Json

/-- White space between tokens. -/
def Spaces (cs : List Char) : Prop := ∀ c ∈ cs, c = ' ' ∨ c = '\t' ∨ c = '\n' ∨ c = '\r'

/-! ## Literals -/

/-- A hexadecimal digit of either case, and its value. -/
def HexDigit (c : Char) (value : Nat) : Prop :=
  ('0' ≤ c ∧ c ≤ '9' ∧ value + '0'.toNat = c.toNat) ∨
    ('a' ≤ c ∧ c ≤ 'f' ∧ value + 'a'.toNat = c.toNat + 10) ∨
    ('A' ≤ c ∧ c ≤ 'F' ∧ value + 'A'.toNat = c.toNat + 10)

/-- The letters that may follow a backslash, with the characters that they stand for. -/
def escapeLetters : List (Char × Char) := [
  ('"', '"'), ('\\', '\\'), ('/', '/'), ('b', '\x08'), ('f', '\x0c'), ('n', '\n'), ('r', '\r'), ('t', '\t')]

/-- The written forms of a piece of a literal. -/
inductive Piece.Written : Piece → List Char → Prop
  | plain {c : Char} (hquote : c ≠ '"') (hslash : c ≠ '\\') (hcontrol : 0x20 ≤ c.toNat) : Written (.char c) [c]
  | escape {letter c : Char} (h : (letter, c) ∈ escapeLetters) : Written (.char c) ['\\', letter]
  | unit {a b c d : Char} {w x y z : Nat} (ha : HexDigit a w) (hb : HexDigit b x) (hc : HexDigit c y)
      (hd : HexDigit d z) : Written (.ofUnit (((w * 16 + x) * 16 + y) * 16 + z)) ['\\', 'u', a, b, c, d]

/-- The written forms of some pieces. -/
inductive PiecesWritten : List Piece → List Char → Prop
  | nil : PiecesWritten [] []
  | cons {p : Piece} {ps : List Piece} {front rest : List Char} (h : p.Written front)
      (hrest : PiecesWritten ps rest) : PiecesWritten (p :: ps) (front ++ rest)

/-- The text that pieces spell: each half of a pair must stand beside its partner. -/
inductive Spells : List Piece → List Char → Prop
  | nil : Spells [] []
  | char {c : Char} {ps : List Piece} {text : List Char} (h : Spells ps text) : Spells (.char c :: ps) (c :: text)
  | pair {lead trail : Nat} {c : Char} {ps : List Piece} {text : List Char} (h : Spells ps text)
      (hc : c = Char.ofNat (0x10000 + lead * 0x400 + trail)) : Spells (.lead lead :: .trail trail :: ps) (c :: text)

/-- The written forms of a literal. -/
inductive Literal.Written : Literal → List Char → Prop
  | plain {ps : List Piece} {text cs : List Char} (hp : PiecesWritten ps cs) (ht : Spells ps text) :
      Written (.plain text) ('"' :: (cs ++ ['"']))
  | unpaired {ps : List Piece} {cs : List Char} (hp : PiecesWritten ps cs) (ht : ∀ text, ¬ Spells ps text) :
      Written .unpaired ('"' :: (cs ++ ['"']))

/-! ## Numerals -/

/-- One or more decimal digits. -/
def Digits (cs : List Char) : Prop := cs ≠ [] ∧ ∀ c ∈ cs, c.isDigit = true

/-- The written forms of a fraction, which may be missing. -/
inductive FractionWritten : List Char → List Char → Prop
  | none : FractionWritten [] []
  | some {digits : List Char} (h : Digits digits) : FractionWritten digits ('.' :: digits)

/-- The written forms of the sign of an exponent; a plus may be left out. -/
inductive SignWritten : Bool → List Char → Prop
  | minus : SignWritten true ['-']
  | plus : SignWritten false ['+']
  | nothing : SignWritten false []

/-- The written forms of an exponent, which may be missing. -/
inductive ExponentWritten : Option (Bool × List Char) → List Char → Prop
  | none : ExponentWritten .none []
  | some {e : Char} {negative : Bool} {sign digits : List Char} (he : e = 'e' ∨ e = 'E')
      (hs : SignWritten negative sign) (h : Digits digits) :
      ExponentWritten (.some (negative, digits)) (e :: (sign ++ digits))

/-- The written forms of a numeral. A zero in front stands by itself. -/
inductive Numeral.Written : Numeral → List Char → Prop
  | intro {negative : Bool} {whole fraction cs ds : List Char} {exponent : Option (Bool × List Char)}
      (hw : Digits whole) (hzero : whole.head? = .some '0' → whole = ['0']) (hf : FractionWritten fraction cs)
      (he : ExponentWritten exponent ds) :
      Written ⟨negative, whole, fraction, exponent⟩ ((if negative then ['-'] else []) ++ (whole ++ (cs ++ ds)))

/-! ## Documents -/

/-- What stands in front of an item or entry: white space, and a comma in it unless it is the first. -/
inductive Separates : Bool → List Char → Prop
  | first {spaces : List Char} (h : Spaces spaces) : Separates true spaces
  | comma {front back : List Char} (hf : Spaces front) (hb : Spaces back) : Separates false (front ++ ',' :: back)

/-- What stands between a key and its value. -/
inductive ColonWritten : List Char → Prop
  | intro {front back : List Char} (hf : Spaces front) (hb : Spaces back) : ColonWritten (front ++ ':' :: back)

mutual

/-- The written forms of a document. -/
inductive Doc.Written : Doc → List Char → Prop
  | null : Doc.Written .null ['n', 'u', 'l', 'l']
  | true : Doc.Written (.bool .true) ['t', 'r', 'u', 'e']
  | false : Doc.Written (.bool .false) ['f', 'a', 'l', 's', 'e']
  | numeral {n : Numeral} {cs : List Char} (h : n.Written cs) : Doc.Written (.numeral n) cs
  | literal {l : Literal} {cs : List Char} (h : l.Written cs) : Doc.Written (.literal l) cs
  | array {items : Items} {cs : List Char} (h : Items.Written .true items cs) :
      Doc.Written (.array items) ('[' :: cs)
  | object {entries : Entries} {cs : List Char} (h : Entries.Written .true entries cs) :
      Doc.Written (.object entries) ('{' :: cs)

/-- The written forms of items, from the first or a later one on up to the bracket. -/
inductive Items.Written : Bool → Items → List Char → Prop
  | closed {first : Bool} {spaces : List Char} (h : Spaces spaces) :
      Items.Written first .closed (spaces ++ [']'])
  | cons {first : Bool} {item : Doc} {rest : Items} {sep cs ds : List Char} (hs : Separates first sep)
      (h : item.Written cs) (hrest : Items.Written .false rest ds) :
      Items.Written first (.cons item rest) (sep ++ (cs ++ ds))

/-- The written forms of entries, from the first or a later one on up to the brace. -/
inductive Entries.Written : Bool → Entries → List Char → Prop
  | closed {first : Bool} {spaces : List Char} (h : Spaces spaces) :
      Entries.Written first .closed (spaces ++ ['}'])
  | cons {first : Bool} {key : Literal} {value : Doc} {rest : Entries} {sep ks colon cs ds : List Char}
      (hs : Separates first sep) (hk : key.Written ks) (hc : ColonWritten colon) (h : value.Written cs)
      (hrest : Entries.Written .false rest ds) :
      Entries.Written first (.cons key value rest) (sep ++ (ks ++ (colon ++ (cs ++ ds))))

end

/-- The texts of a document: a written form with white space around it. -/
inductive Doc.IsText : Doc → List Char → Prop
  | intro {d : Doc} {front cs back : List Char} (hf : Spaces front) (h : d.Written cs) (hb : Spaces back) :
      Doc.IsText d (front ++ (cs ++ back))

end ClientRoster.Json
