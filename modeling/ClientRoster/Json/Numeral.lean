import ClientRoster.Json.Fault

/-!
# `ClientRoster.Json.Numeral` — numbers in a document

A numeral is kept as it is written. Its value is an integer if it has neither fraction nor exponent and fits into
64 bits, with a sign or without; minus zero and everything else is a floating-point number. Such a number is found
in one multiplication or division by a power of ten, from as many leading digits as fit into 64 bits, so it may be
off in its last place; a numeral beyond the floating-point range has no value.

## Contents
- `Numeral`, `scanNumeral`, `Numeral.chars`.
- `Number`, `Numeral.value?`.
-/

namespace ClientRoster.Json

/-- A numeral, as it is written: digits, digits behind the point, and the sign and digits of the exponent. -/
structure Numeral where
  negative : Bool
  whole : List Char
  fraction : List Char
  exponent : Option (Bool × List Char)
  deriving DecidableEq, Repr

/-! ## Reading and writing -/

/-- The digits at the front of a text and what follows them. -/
def spanDigits (text : List Char) : List Char × List Char :=
  (text.takeWhile Char.isDigit, text.dropWhile Char.isDigit)

/-- The fault where a digit is missing. A reader who skips the numeral does not ask whether the text is over. -/
def missingDigit (rest : List Char) : Fault :=
  if rest.isEmpty then ⟨.ended, .malformed⟩ else .malformed

/-- Reads the digits before the point: at least one, and a zero only by itself. -/
def scanWhole (text : List Char) : Except Fault (List Char × List Char) :=
  match spanDigits text with
  | ([], rest) => .error (missingDigit rest)
  | ('0' :: _ :: _, _) => .error .malformed
  | (digits, rest) => .ok (digits, rest)

/-- Reads the point and the digits behind it, if there is a point. -/
def scanFraction : List Char → Except Fault (List Char × List Char)
  | '.' :: text =>
    match spanDigits text with
    | ([], rest) => .error (missingDigit rest)
    | (digits, rest) => .ok (digits, rest)
  | text => .ok ([], text)

/-- Reads the sign of an exponent: is it a minus? -/
def scanSign : List Char → Bool × List Char
  | '+' :: text => (false, text)
  | '-' :: text => (true, text)
  | text => (false, text)

/-- Reads an exponent, if there is one. -/
def scanExponent : List Char → Except Fault (Option (Bool × List Char) × List Char)
  | [] => .ok (none, [])
  | c :: text =>
    if c = 'e' ∨ c = 'E' then
      let (negative, text) := scanSign text
      match spanDigits text with
      | ([], rest) => .error (missingDigit rest)
      | (digits, rest) => .ok (some (negative, digits), rest)
    else .ok (none, c :: text)

/-- Reads a numeral from behind its sign. -/
def scanNumeral (negative : Bool) (text : List Char) : Except Fault (Numeral × List Char) := do
  let (whole, text) ← scanWhole text
  let (fraction, text) ← scanFraction text
  let (exponent, text) ← scanExponent text
  .ok (⟨negative, whole, fraction, exponent⟩, text)

namespace Numeral

/-- The numeral of a natural number. -/
def ofNat (n : Nat) : Numeral := ⟨false, Nat.toDigits 10 n, [], none⟩

/-- The numeral in its written form. -/
def chars (n : Numeral) : List Char :=
  (if n.negative then ['-'] else []) ++ n.whole
    ++ (if n.fraction.isEmpty then [] else '.' :: n.fraction)
    ++ (match n.exponent with
        | none => []
        | some (negative, digits) => 'e' :: (if negative then ['-'] else ['+']) ++ digits)

end Numeral

/-! ## Values -/

/-- The value of a numeral. -/
inductive Number
  | integer (n : Int)
  | float (x : Float)

/-- The value of a decimal digit. -/
def digitValue (c : Char) : Nat := c.toNat - '0'.toNat

/-- The number that decimal digits write. -/
def natOfDecimal (digits : List Char) : Nat := digits.foldl (fun n c => n * 10 + digitValue c) 0

/-- Takes whole digits while the number stays within 64 bits; how many digits are left over counts as scale. -/
def takeWhole (significand : Nat) : List Char → Nat × Nat
  | [] => (significand, 0)
  | c :: rest =>
    let next := significand * 10 + digitValue c
    if next < UInt64.size then takeWhole next rest else (significand, rest.length + 1)

/-- Takes digits behind the point while the number stays within 64 bits, and counts those taken. -/
def takeFraction (significand : Nat) : List Char → Nat × Nat
  | [] => (significand, 0)
  | c :: rest =>
    let next := significand * 10 + digitValue c
    if next < UInt64.size then
      let (result, taken) := takeFraction next rest
      (result, taken + 1)
    else (significand, 0)

/-- A power of ten as a floating-point number. -/
def powerOfTen (n : Nat) : Float := Float.ofScientific 1 false n

/-- Multiplies by a power of ten, in one step where such a power is in range; `none` beyond the range. -/
def scaleByTen (x : Float) (exponent : Int) : Option Float :=
  if 0 ≤ exponent then
    if exponent ≤ 308 then
      let y := x * powerOfTen exponent.toNat
      if y.isInf then none else some y
    else if x == 0 then some x else none
  else if -308 ≤ exponent then some (x / powerOfTen (-exponent).toNat)
  else if x == 0 then some x
  else scaleByTen (x / powerOfTen 308) (exponent + 308)
termination_by exponent.natAbs
decreasing_by omega

namespace Numeral

/-- The exponent as a number. -/
def exponentValue (n : Numeral) : Int :=
  match n.exponent with
  | none => 0
  | some (negative, digits) => if negative then -(natOfDecimal digits : Int) else natOfDecimal digits

/-- The floating-point value, if it is in range. -/
def float? (n : Numeral) : Option Float := do
  let (significand, extra) := takeWhole 0 n.whole
  let (significand, taken) := takeFraction significand n.fraction
  let x ← scaleByTen (UInt64.ofNat significand).toFloat ((extra : Int) - taken + n.exponentValue)
  some (if n.negative then -x else x)

/-- The integer that the numeral writes, if it is one of 64 bits. -/
def integer? (n : Numeral) : Option Int :=
  if n.fraction.isEmpty && n.exponent.isNone then
    let magnitude := natOfDecimal n.whole
    if n.negative then
      if 0 < magnitude ∧ 2 * magnitude ≤ UInt64.size then some (-(magnitude : Int)) else none
    else if magnitude < UInt64.size then some magnitude else none
  else none

/-- The value, unless it is beyond the floating-point range. -/
def value? (n : Numeral) : Option Number :=
  match n.integer? with
  | some i => some (.integer i)
  | none => n.float?.map .float

end Numeral

end ClientRoster.Json
