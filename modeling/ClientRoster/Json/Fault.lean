/-!
# `ClientRoster.Json.Fault` — where reading a text stops

A text that is no document either goes on too short or goes on wrong. A reader who only skips a value looks less
closely than one who keeps it, and may tell another of the two stories about the same place; a `Fault` holds both.
-/

namespace ClientRoster.Json

/-- What is wrong with a text, as a text. -/
inductive Flaw
  /-- A character stands where it cannot. -/
  | malformed
  /-- The text is over before the document is. -/
  | ended
  deriving DecidableEq, Repr

/-- A place where reading stops: the flaw seen by a reader who keeps the value, and by one who skips it. -/
structure Fault where
  kept : Flaw
  skipped : Flaw
  deriving DecidableEq, Repr

namespace Fault

/-- The fault in which both readers see the same flaw. -/
def both (flaw : Flaw) : Fault := ⟨flaw, flaw⟩

/-- A character stands where it cannot. -/
def malformed : Fault := both .malformed

/-- The text is over too soon. -/
def ended : Fault := both .ended

end Fault

end ClientRoster.Json
