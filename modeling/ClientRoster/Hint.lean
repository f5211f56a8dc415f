import ClientRoster.Client

/-!
# `ClientRoster.Hint` — what a mechanism reports

A hint is one report of one mechanism: host names or registration data for an address, the withdrawal of such a
report, the end of a client, or the end of a source.
-/

namespace ClientRoster

/-- One report of a mechanism that watches clients. -/
inductive Hint
  /-- A source knows these host names of an address. -/
  | hosts (addr : Address) (source : Source) (hosts : List String)
  /-- The registration data of an address. -/
  | whois (addr : Address) (entry : Whois)
  /-- A source knows nothing any more about an address. -/
  | unset (addr : Address) (source : Source)
  /-- A client is gone. -/
  | remove (addr : Address)
  /-- A source has been switched off. -/
  | sourceDisabled (source : Source)
  deriving DecidableEq, Repr

namespace Hint

/-- The source that a hint comes from or is about; the end of a client has none. -/
def source? : Hint → Option Source
  | hosts _ s _ => some s
  | whois _ _ => some .whois
  | unset _ s => some s
  | remove _ => none
  | sourceDisabled s => some s

/-- The address that a hint is about; the end of a source has none. -/
def addr? : Hint → Option Address
  | hosts a _ _ => some a
  | whois a _ => some a
  | unset a _ => some a
  | remove a => some a
  | sourceDisabled _ => none

end Hint

end ClientRoster
