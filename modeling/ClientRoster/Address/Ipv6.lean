import ClientRoster.Address.Ipv4

/-!
# `ClientRoster.Address.Ipv6` — eight groups and their text

A group is a 16-bit word in hexadecimal. One `::` may stand for one or more groups of zero, and the last two
groups may be written as a dotted address. Of these many forms one is canonical: lower case, no zero in front,
the longest run of at least two zero groups (the first of equals) as `::`, and a dotted tail exactly for the
addresses that map an address of four octets.

## Contents
- `Ipv6`, `Ipv6.unspecified`, `Ipv6.mapped?`.
- `Ipv6.text`: the canonical form, with `Ipv6.gap?` as the choice of the run.
- `Ipv6.read?`: every accepted form.
-/

namespace ClientRoster

/-- An address of eight groups of sixteen bits. -/
structure Ipv6 where
  groups : List UInt16
  length_groups : groups.length = 8
  deriving DecidableEq, Repr

namespace Ipv6

/-- The address with these groups, if they are eight. -/
def ofGroups? (groups : List UInt16) : Option Ipv6 :=
  if h : groups.length = 8 then some ⟨groups, h⟩ else none

/-- The address that stands for no address. -/
def unspecified : Ipv6 := ⟨List.replicate 8 0, rfl⟩

/-- The two groups that hold the octets of an address of four octets. -/
def groupsOfIpv4 (ip : Ipv4) : List UInt16 :=
  [ip.a.toUInt16 * 256 + ip.b.toUInt16, ip.c.toUInt16 * 256 + ip.d.toUInt16]

/-- The four octets that two groups hold. -/
def ipv4OfGroups (high low : UInt16) : Ipv4 :=
  ⟨(high / 256).toUInt8, high.toUInt8, (low / 256).toUInt8, low.toUInt8⟩

/-- The address of four octets that this address maps: five groups of zero, one of ones, then the octets. -/
def mapped? (ip : Ipv6) : Option Ipv4 :=
  match ip.groups with
  | [0, 0, 0, 0, 0, 0xffff, high, low] => some (ipv4OfGroups high low)
  | _ => none

/-! ## Canonical text -/

/-- How many groups of zero stand at the front. -/
def zeroRun (groups : List UInt16) : Nat := (groups.takeWhile (· = 0)).length

/-- The longest run of zero groups as its start and its length, the first of equals. -/
def longestRun : List UInt16 → Nat × Nat
  | [] => (0, 0)
  | g :: gs =>
    let here := zeroRun (g :: gs)
    let (start, length) := longestRun gs
    if length ≤ here then (0, here) else (start + 1, length)

/-- The run that is written as a gap: a longest one, of at least two groups. -/
def gap? (groups : List UInt16) : Option (Nat × Nat) :=
  let (start, length) := longestRun groups
  if 2 ≤ length then some (start, length) else none

/-- A group in hexadecimal. -/
def groupText (g : UInt16) : List Char := Nat.toDigits 16 g.toNat

/-- Groups with a colon between each two. -/
def groupsText (groups : List UInt16) : List Char := Text.joined ':' (groups.map groupText)

/-- The canonical text. -/
def text (ip : Ipv6) : List Char :=
  match ip.mapped? with
  | some inner => "::ffff:".toList ++ inner.text
  | none => match gap? ip.groups with
    | some (start, length) =>
      groupsText (ip.groups.take start) ++ "::".toList ++ groupsText (ip.groups.drop (start + length))
    | none => groupsText ip.groups

/-! ## Reading -/

/-- Reads a group: one to four hexadecimal digits of either case. -/
def group? (digits : List Char) : Option UInt16 := do
  let value ← Text.natOfDigits? 16 digits
  if digits.length ≤ 4 then some (UInt16.ofNat value) else none

/-- Reads fields as groups; the last one may be a dotted address, which fills two groups. -/
def groups? : List (List Char) → Option (List UInt16)
  | [] => some []
  | [last] => ((group? last).map fun g => [g]) <|> ((Ipv4.read? last).map groupsOfIpv4)
  | field :: rest => do
    let g ← group? field
    let gs ← groups? rest
    some (g :: gs)

/-- Reads one side of a gap, which may hold no group at all. -/
def side? (cs : List Char) : Option (List UInt16) :=
  if cs.isEmpty then some [] else groups? (Text.fields ':' cs)

/-- The texts before and after the first `::`. -/
def cutAtGap : List Char → Option (List Char × List Char)
  | ':' :: ':' :: rest => some ([], rest)
  | [] => none
  | c :: rest => (cutAtGap rest).map fun (front, back) => (c :: front, back)

/-- Is a dotted address part of the text? -/
def isDotted (cs : List Char) : Bool := cs.contains '.'

/-- Reads an address. A gap stands for at least one group, and a dotted address only ever ends the text. -/
def read? (cs : List Char) : Option Ipv6 :=
  match cutAtGap cs with
  | none => groups? (Text.fields ':' cs) >>= ofGroups?
  | some (front, back) => do
    let before ← if isDotted front then none else side? front
    let after ← side? back
    let written := before.length + after.length
    if written < 8 then ofGroups? (before ++ List.replicate (8 - written) 0 ++ after) else none

end Ipv6

end ClientRoster
