import ClientRoster.Address

/-!
# `ClientRoster.Failure` — what can go wrong, and how it is told

Most operations cannot fail. What can is a record for an address that names nobody, settings that cannot work,
and a feed that does not deliver.
-/

namespace ClientRoster

/-- A failure of the library, by its cause. -/
inductive Failure
  /-- The address cannot identify a client. -/
  | unusableAddress (addr : Address)
  /-- The settings cannot work. -/
  | settings (reason : String)
  /-- A feed of hints did not deliver. -/
  | feed (reason : String)
  /-- Anything else, told in the words of whoever noticed it. -/
  | other (text : String)
  deriving DecidableEq, Repr

namespace Failure

/-- The text that people read. -/
def message : Failure → String
  | unusableAddress addr => "Invalid client address: " ++ addr.text
  | settings reason => "Configuration error: " ++ reason
  | feed reason => "Hint feed error: " ++ reason
  | other text => text

end Failure

end ClientRoster
