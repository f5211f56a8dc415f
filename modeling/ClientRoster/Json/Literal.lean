import ClientRoster.Json.Fault
import ClientRoster.Text.Fields

/-!
# `ClientRoster.Json.Literal` — quoted text in a document

A literal stands between double quotes. Backslash escapes stand for single characters, or for 16-bit units of
which two may be the halves of one character. A literal can be complete and still hold a half without its
partner: such a literal stands for no text, but it has an end.

## Contents
- `scanPieces`: the pieces of a literal up to its closing quote, or up to the flaw that hides it.
- `joinPieces?`: the text that pieces stand for, if every half has its partner.
- `readLiteral`: both together.
- `literalChars`: the one written form of a text.
-/

namespace ClientRoster.Json

/-- A complete literal. -/
inductive Literal
  /-- It stands for a text. -/
  | plain (text : List Char)
  /-- It holds half of a pair of surrogates without the other half. -/
  | unpaired
  deriving DecidableEq, Repr

/-- A piece of a literal: a character, or half of one as the ten bits that it contributes. -/
inductive Piece
  | char (c : Char)
  | lead (bits : Nat)
  | trail (bits : Nat)
  deriving DecidableEq, Repr

/-! ## Reading -/

/-- The piece that a 16-bit unit is. -/
def Piece.ofUnit (unit : Nat) : Piece :=
  if unit < 0xd800 then char (Char.ofNat unit)
  else if unit < 0xdc00 then lead (unit - 0xd800)
  else if unit < 0xe000 then trail (unit - 0xdc00)
  else char (Char.ofNat unit)

/-- The character that two halves make. -/
def pairChar (lead trail : Nat) : Char := Char.ofNat (0x10000 + lead * 0x400 + trail)

/-- The text that pieces stand for, if each lead is followed by a trail and there is no other half. -/
def joinPieces? : List Piece → Option (List Char)
  | [] => some []
  | .char c :: rest => (joinPieces? rest).map (c :: ·)
  | .lead a :: .trail b :: rest => (joinPieces? rest).map (pairChar a b :: ·)
  | _ => none

/-- The character that a one-letter escape stands for. -/
def escaped? (letter : Char) : Option Char :=
  if letter = '"' ∨ letter = '\\' ∨ letter = '/' then some letter
  else if letter = 'b' then some '\x08'
  else if letter = 'f' then some '\x0c'
  else if letter = 'n' then some '\n'
  else if letter = 'r' then some '\r'
  else if letter = 't' then some '\t'
  else none

/-- How many bytes a text takes. -/
def byteCount : List Char → Nat
  | [] => 0
  | c :: rest => c.utf8Size + byteCount rest

/-- What the scan of a literal found: its pieces, the flaw that hides its end, and what follows it. -/
structure Scanned where
  pieces : List Piece
  flaw : Option Flaw
  rest : List Char

namespace Scanned

/-- The scan ends here, at the closing quote. -/
def done (rest : List Char) : Scanned := ⟨[], none, rest⟩

/-- The scan ends here, at a flaw. -/
def stop (flaw : Flaw) : Scanned := ⟨[], some flaw, []⟩

/-- The same scan with one more piece in front. -/
def push (piece : Piece) (s : Scanned) : Scanned := { s with pieces := piece :: s.pieces }

end Scanned

/-- Scans a literal from behind its opening quote. A unit needs four bytes of text, whatever they are, before the
question of their being digits arises. -/
def scanPieces : List Char → Scanned
  | [] => .stop .ended
  | c :: rest =>
    if c = '"' then .done rest
    else if c = '\\' then
      match rest with
      | [] => .stop .ended
      | letter :: rest =>
        if letter = 'u' then
          match rest with
          | h₁ :: h₂ :: h₃ :: h₄ :: rest =>
            match Text.natOfDigits? 16 [h₁, h₂, h₃, h₄] with
            | some unit => (scanPieces rest).push (.ofUnit unit)
            | none => .stop .malformed
          | short => .stop (if byteCount short < 4 then .ended else .malformed)
        else match escaped? letter with
          | some e => (scanPieces rest).push (.char e)
          | none => .stop .malformed
    else if c.toNat < 0x20 then .stop .malformed
    else (scanPieces rest).push (.char c)

/-- The pieces without a lead at their end, which the partner might still have followed. -/
def withoutOpenLead (pieces : List Piece) : List Piece :=
  match pieces.getLast? with
  | some (.lead _) => pieces.dropLast
  | _ => pieces

/-- The fault of a literal that has pieces and then a flaw. A half that is certain to lack its partner comes
first for a reader who keeps the text. -/
def brokenFault (pieces : List Piece) (flaw : Flaw) : Fault :=
  if (joinPieces? (withoutOpenLead pieces)).isSome then .both flaw else ⟨.malformed, flaw⟩

/-- Reads a literal from behind its opening quote, with what follows the closing one. -/
def readLiteral (text : List Char) : Except Fault Literal × List Char :=
  let s := scanPieces text
  match s.flaw with
  | some flaw => (.error (brokenFault s.pieces flaw), s.rest)
  | none => match joinPieces? s.pieces with
    | some text => (.ok (.plain text), s.rest)
    | none => (.ok .unpaired, s.rest)

/-! ## Writing -/

/-- The written form of one character: the two that end or bend a literal and the control characters are escaped,
by a letter where there is one. -/
def escapeChar (c : Char) : List Char :=
  if c = '"' ∨ c = '\\' then ['\\', c]
  else if c = '\x08' then ['\\', 'b']
  else if c = '\x0c' then ['\\', 'f']
  else if c = '\n' then ['\\', 'n']
  else if c = '\r' then ['\\', 'r']
  else if c = '\t' then ['\\', 't']
  else if c.toNat < 0x20 then
    ['\\', 'u', '0', '0', Nat.digitChar (c.toNat / 16), Nat.digitChar (c.toNat % 16)]
  else [c]

/-- The written form of a text, with both quotes. -/
def literalChars (text : List Char) : List Char := '"' :: text.flatMap escapeChar ++ ['"']

end ClientRoster.Json
