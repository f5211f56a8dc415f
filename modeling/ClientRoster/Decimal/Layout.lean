import ClientRoster.Decimal.Shortest

/-!
# `ClientRoster.Decimal.Layout` — how a floating-point number is written

The digits are the shortest ones. A number whose leading digit stands from the fifth place behind the point to the
sixteenth before it is written out, with a fraction even if it is whole; any other has an exponent, with a sign and
without padding. Zero keeps its sign.
-/

namespace ClientRoster.Decimal

/-- A decimal written out. -/
def plain (digits : List Char) (exponent : Int) : List Char :=
  if 0 ≤ exponent then digits ++ List.replicate exponent.toNat '0' ++ ['.', '0']
  else
    let places := (-exponent).toNat
    if places < digits.length then
      digits.take (digits.length - places) ++ '.' :: digits.drop (digits.length - places)
    else '0' :: '.' :: List.replicate (places - digits.length) '0' ++ digits

/-- A decimal with an exponent, of which `lead` is the place of the leading digit. -/
def scientific (digits : List Char) (lead : Int) : List Char :=
  digits.take 1 ++ (if digits.length ≤ 1 then [] else '.' :: digits.drop 1)
    ++ 'e' :: (if lead < 0 then '-' else '+') :: Nat.toDigits 10 lead.natAbs

/-- A decimal in the form that its size asks for. -/
def chars (d : Decimal) : List Char :=
  let digits := Nat.toDigits 10 d.digits
  let lead := d.exponent + digits.length - 1
  if -5 ≤ lead ∧ lead ≤ 15 then plain digits d.exponent else scientific digits lead

/-- A finite number as text. -/
def floatText (x : Float) : String :=
  let bits := x.toBits.toNat
  let sign := if bits < Dyadic.signBit then [] else ['-']
  let magnitude := Dyadic.ofBits bits
  String.ofList (sign ++ if magnitude.mantissa = 0 then ['0', '.', '0'] else (shortest magnitude).chars)

end ClientRoster.Decimal
