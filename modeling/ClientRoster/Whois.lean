/-!
# `ClientRoster.Whois` — registration data of an address

What a WHOIS look-up tells about the holder of an address. Every part may be unknown, and an entry in which all
are unknown is still an entry: it says that somebody asked.
-/

namespace ClientRoster

/-- Registration data of an address. -/
structure Whois where
  /-- The city of the holder. -/
  city : Option String := none
  /-- The country of the holder. -/
  country : Option String := none
  /-- The name of the organisation. -/
  orgname : Option String := none
  deriving DecidableEq, Repr

namespace Whois

/-- The entry that knows nothing. -/
def empty : Whois := {}

/-- The entry with a known city. -/
def withCity (w : Whois) (city : String) : Whois := { w with city := some city }

/-- The entry with a known country. -/
def withCountry (w : Whois) (country : String) : Whois := { w with country := some country }

/-- The entry with a known organisation. -/
def withOrgname (w : Whois) (orgname : String) : Whois := { w with orgname := some orgname }

end Whois

end ClientRoster
