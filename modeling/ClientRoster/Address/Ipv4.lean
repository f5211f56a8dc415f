import ClientRoster.Text.Fields

/-!
# `ClientRoster.Address.Ipv4` — four octets and their dotted form

An octet is written in decimal with no zero in front, and that is also the only form which is read, so each
address has one text.
-/

namespace ClientRoster

/-- An address of four octets. -/
structure Ipv4 where
  a : UInt8
  b : UInt8
  c : UInt8
  d : UInt8
  deriving DecidableEq, Repr

namespace Ipv4

/-- The address that stands for no address. -/
def unspecified : Ipv4 := ⟨0, 0, 0, 0⟩

/-- One octet in decimal. -/
def octetText (o : UInt8) : List Char := Nat.toDigits 10 o.toNat

/-- Reads an octet: one to three digits, the first of them zero only if it is the only one. -/
def octet? (digits : List Char) : Option UInt8 := do
  let value ← Text.natOfDigits? 10 digits
  if digits.length ≤ 3 ∧ (digits.head? = some '0' → digits.length = 1) ∧ value ≤ 255 then
    some (UInt8.ofNat value)
  else none

/-- The dotted form. -/
def text (ip : Ipv4) : List Char :=
  Text.joined '.' [octetText ip.a, octetText ip.b, octetText ip.c, octetText ip.d]

/-- Reads the dotted form. -/
def read? (cs : List Char) : Option Ipv4 :=
  match Text.fields '.' cs with
  | [a, b, c, d] => do some ⟨← octet? a, ← octet? b, ← octet? c, ← octet? d⟩
  | _ => none

end Ipv4

end ClientRoster
