import ClientRoster.Text.Lower

/-!
# `ClientRoster.Daemon.Log` — log records

A record has a level and a message. A log that is set to a level shows the records of that level and of the more
urgent ones.
-/

namespace ClientRoster.Daemon

/-- How urgent a log record is, least urgent first. -/
inductive Level
  | trace
  | debug
  | info
  | warn
  | error
  deriving DecidableEq, Repr

/-- A log record. -/
structure LogRecord where
  level : Level
  message : String
  deriving DecidableEq, Repr

namespace Level

/-- The place of a level in the order of urgency. -/
def rank : Level → Nat
  | trace => 0
  | debug => 1
  | info => 2
  | warn => 3
  | error => 4

/-- All levels, least urgent first. -/
def all : List Level := [trace, debug, info, warn, error]

/-- The name of a level in settings. -/
def name : Level → String
  | trace => "trace"
  | debug => "debug"
  | info => "info"
  | warn => "warn"
  | error => "error"

/-- The name of a level in a log. -/
def label : Level → String
  | trace => "TRACE"
  | debug => "DEBUG"
  | info => "INFO"
  | warn => "WARN"
  | error => "ERROR"

/-- Reads the name of a level; the case of its letters does not count, blanks around it do. -/
def ofName? (text : String) : Option Level :=
  let word := String.ofList (Text.lowered text.toList)
  all.find? fun l => decide (l.name = word)

/-- Does a log that is set to `threshold` show a record? -/
def shows (threshold : Level) (record : LogRecord) : Bool := decide (threshold.rank ≤ record.level.rank)

end Level

/-- An informative record. -/
def info (message : String) : LogRecord := ⟨.info, message⟩

end ClientRoster.Daemon
