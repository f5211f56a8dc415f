import ClientRoster.Address.Ipv6

/-!
# `ClientRoster.Address` — what identifies a client

An address has four octets or eight groups. The two kinds never meet: an address of eight groups that maps one
of four octets is another client.
-/

namespace ClientRoster

/-- A network address. -/
inductive Address
  | v4 (ip : Ipv4)
  | v6 (ip : Ipv6)
  deriving DecidableEq, Repr

namespace Address

/-- Is this one of the two addresses that stand for no address? -/
def isUnspecified : Address → Bool
  | v4 ip => ip = Ipv4.unspecified
  | v6 ip => ip = Ipv6.unspecified

/-- The canonical text, as characters. -/
def chars : Address → List Char
  | v4 ip => ip.text
  | v6 ip => ip.text

/-- The canonical text. -/
def text (a : Address) : String := String.ofList a.chars

/-- Reads an address in any accepted form. -/
def ofText? (text : String) : Option Address :=
  ((Ipv4.read? text.toList).map v4) <|> ((Ipv6.read? text.toList).map v6)

end Address

end ClientRoster
