import ClientRoster.Source
import ClientRoster.Json.Decode

/-!
# `ClientRoster.Source.Reader` — sources in texts and documents

A source is written as its name. A name that is none of the five is refused, and the message shows it.
-/

namespace ClientRoster

/-- A text that names no source. -/
structure UnknownSource where
  name : String
  deriving DecidableEq, Repr

/-- The message about a text that names no source. -/
def UnknownSource.message (u : UnknownSource) : String :=
  "unknown client source: " ++ Text.quoted u.name

namespace Source

open Json

/-- Reads the name of a source. -/
def ofName (name : String) : Except UnknownSource Source :=
  match ofName? name with
  | some s => .ok s
  | none => .error ⟨name⟩

/-- A source as a document: its name. -/
def toDoc (s : Source) : Doc := .text s.name

/-- Reads a source from a document. -/
def ofDoc (d : Doc) : Read Source := do
  match ofName (← d.asText "a string") with
  | .ok s => .ok s
  | .error unknown => .error (.misfit (.refused unknown.message))

end Source

end ClientRoster
