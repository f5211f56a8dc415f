import ClientRoster.Failure
import ClientRoster.Source
import ClientRoster.Text.Quoted

/-!
# `ClientRoster.Notice` — what an intake announces

Everything that an intake does with a hint is announced by one notice, and so are its start and its end.
-/

namespace ClientRoster

/-- Why an intake stopped. -/
inductive StopReason
  /-- The feed has no more hints. -/
  | feedEnded
  /-- Somebody asked it to stop. -/
  | signalled
  deriving DecidableEq, Repr

/-- The reason in words. -/
def StopReason.text : StopReason → String
  | feedEnded => "Feed ended"
  | signalled => "Shutdown signal"

/-- An announcement of an intake. -/
inductive Notice
  /-- A hint about an address was applied; the end of a client has no source. -/
  | applied (addr : Address) (source : Option Source)
  /-- A hint was dropped: its source is refused or lists no host names. -/
  | ignored (source : Source)
  /-- A hint about an address could not be applied. -/
  | rejected (addr : Address) (failure : Failure)
  /-- A source was withdrawn on every client, and so many clients went with it. -/
  | cleared (source : Source) (removed : Nat)
  /-- The intake starts and refuses these sources. -/
  | started (refused : List Source)
  /-- The intake is at its end. -/
  | stopped (reason : StopReason)
  deriving DecidableEq, Repr

namespace Notice

/-- A structure as a diagnostic text shows it: its name and its fields between braces. -/
def shownFields (name : String) (fields : List (String × String)) : String :=
  name ++ " \x7b " ++ ", ".intercalate (fields.map fun f => f.1 ++ ": " ++ f.2) ++ " \x7d"

/-- A source that may be absent, as a diagnostic text shows it. -/
def shownOption : Option Source → String
  | none => "None"
  | some s => "Some(" ++ s.tag ++ ")"

/-- The notice as a diagnostic text shows it. -/
def shown : Notice → String
  | applied addr source =>
    shownFields "Applied" [("addr", addr.text), ("source", shownOption source)]
  | ignored source => shownFields "Ignored" [("source", source.tag)]
  | rejected addr failure =>
    shownFields "Rejected" [("addr", addr.text), ("error", Text.quoted failure.message)]
  | cleared source removed =>
    shownFields "SourceCleared" [("source", source.tag), ("removed", toString removed)]
  | started refused =>
    shownFields "Started" [("disabled_sources", "[" ++ ", ".intercalate (refused.map Source.tag) ++ "]")]
  | stopped reason => shownFields "Stopped" [("reason", Text.quoted reason.text)]

end Notice

end ClientRoster
