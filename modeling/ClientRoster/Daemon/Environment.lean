import ClientRoster.Daemon.Log
import ClientRoster.Hint.Feed
import ClientRoster.Settings

/-!
# `ClientRoster.Daemon.Environment` — settings from environment variables

Five variables switch the sources, one sets how many notices may wait, and one sets the level of the log. A
variable whose value is not UTF-8 counts as absent. Reading stops at the first value that cannot be read; then the
values are checked, and the first that is out of range is told.

## Contents
- `Environment`, `flagOfText?`, `countOfText`.
- `Options`, `Options.ofEnvironment`, `Options.check`, `Options.settings`.
- `OptionsError`, its two ways, and `OptionsError.complaint`.
-/

namespace ClientRoster.Daemon

/-- The variables that are present, with the bytes of their values. -/
abbrev Environment := List (String × Text.Bytes)

/-- The value of a variable that is present and UTF-8. -/
def Environment.value? (env : Environment) (key : String) : Option String :=
  (env.find? fun e => decide (e.1 = key)).bind fun e => textOfBytes? e.2

/-! ## Values -/

/-- The words for yes. -/
def yesWords : List String := ["1", "true", "yes", "on"]

/-- The words for no. -/
def noWords : List String := ["0", "false", "no", "off"]

/-- Reads a switch: a word for yes or for no, in letters of any case and with white space around it. -/
def flagOfText? (text : String) : Option Bool :=
  let word := String.ofList (Text.lowered (Text.trim text.toList))
  if word ∈ yesWords then some true
  else if word ∈ noWords then some false
  else none

/-- Why a text is no count. -/
inductive CountError
  | empty
  | invalidDigit
  | tooLarge
  deriving DecidableEq, Repr

/-- The message about a text that is no count. -/
def CountError.message : CountError → String
  | empty => "cannot parse integer from empty string"
  | invalidDigit => "invalid digit found in string"
  | tooLarge => "number too large to fit in target type"

/-- Reads digits behind those that make `high`, from the left and within 64 bits. -/
def countFrom (high : Nat) : List Char → Except CountError Nat
  | [] => .ok high
  | c :: rest =>
    if c.isDigit then
      let next := high * 10 + (c.toNat - '0'.toNat)
      if next < UInt64.size then countFrom next rest else .error .tooLarge
    else .error .invalidDigit

/-- Reads the digits of a count: at least one. -/
def countOfDigits : List Char → Except CountError Nat
  | [] => .error .invalidDigit
  | digits => countFrom 0 digits

/-- Reads a count: digits, with a plus before them or not. -/
def countOfText (text : String) : Except CountError Nat :=
  match text.toList with
  | [] => .error .empty
  | '+' :: digits => countOfDigits digits
  | digits => countOfDigits digits

/-! ## Options -/

/-- What the environment asks for. -/
structure Options where
  sources : SourcePolicy := {}
  capacity : Option Nat := none
  logLevel : String := "info"
  deriving DecidableEq, Repr

/-- What is wrong with the environment. -/
inductive OptionsError
  /-- A switch is neither on nor off. -/
  | badFlag (key value : String)
  /-- The number of waiting notices is no number. -/
  | badCapacity (value : String) (cause : CountError)
  /-- The number of waiting notices is out of range. -/
  | capacityRange (capacity : Nat)
  /-- The log has no such level. -/
  | badLevel (value : String)
  deriving DecidableEq, Repr

/-- The variables that switch sources, in the order in which they are read. -/
def sourceVariables : List (String × Source) := [
  ("CLIENTINFO_SOURCE_WHOIS", .whois),
  ("CLIENTINFO_SOURCE_ARP", .arp),
  ("CLIENTINFO_SOURCE_RDNS", .rdns),
  ("CLIENTINFO_SOURCE_DHCP", .dhcp),
  ("CLIENTINFO_SOURCE_HOSTS", .hostsFile)]

/-- The variable for the number of notices that may wait. -/
def capacityVariable : String := "CLIENTINFO_EVENT_CHANNEL_CAPACITY"

/-- The variable for the level of the log. -/
def levelVariable : String := "CLIENTINFO_LOG_LEVEL"

/-- The largest number of waiting notices that may be asked for. -/
def maxCapacityOption : Nat := 1000000

namespace OptionsError

/-- What is wrong, in words. -/
def message : OptionsError → String
  | badFlag key value => key ++ " must be true or false. Got: " ++ value
  | badCapacity value cause => capacityVariable ++ " '" ++ value ++ "' is not a number: " ++ cause.message
  | capacityRange capacity =>
    capacityVariable ++ " must be between 1 and 1000000. Got: " ++ toString capacity
  | badLevel value =>
    levelVariable ++ " '" ++ value ++ "' is not valid. Valid levels: trace, debug, info, warn, error"

/-- What the daemon says before it gives up: a value that cannot be read, or one that is not valid. -/
def complaint : OptionsError → String
  | e@(badFlag _ _) | e@(badCapacity _ _) => "Configuration error: " ++ e.message
  | e@(capacityRange _) | e@(badLevel _) => "Configuration validation error: " ++ e.message

end OptionsError

/-- Reads a switch from the value of its variable. -/
def readFlag (key value : String) : Except OptionsError Bool :=
  match flagOfText? value with
  | some on => .ok on
  | none => .error (.badFlag key value)

/-- Switches the sources whose variables are present. -/
def readSources (env : Environment) (p : SourcePolicy) : List (String × Source) → Except OptionsError SourcePolicy
  | [] => .ok p
  | (key, s) :: rest => do
    match env.value? key with
    | none => readSources env p rest
    | some value => readSources env (p.switch s (← readFlag key value)) rest

/-- Reads the number of notices that may wait, if the variable is present. -/
def readCapacity (env : Environment) : Except OptionsError (Option Nat) :=
  match env.value? capacityVariable with
  | none => .ok none
  | some value => match countOfText value with
    | .ok n => .ok (some n)
    | .error cause => .error (.badCapacity value cause)

namespace Options

/-- Reads the environment. -/
def ofEnvironment (env : Environment) : Except OptionsError Options := do
  let sources ← readSources env {} sourceVariables
  let capacity ← readCapacity env
  .ok { sources := sources, capacity := capacity, logLevel := (env.value? levelVariable).getD "info" }

/-- Checks the number of waiting notices. -/
def checkCapacity (o : Options) : Except OptionsError Unit :=
  match o.capacity with
  | none => .ok ()
  | some n => if 1 ≤ n ∧ n ≤ maxCapacityOption then .ok () else .error (.capacityRange n)

/-- Checks the values, and gives the level of the log. -/
def check (o : Options) : Except OptionsError Level := do
  o.checkCapacity
  match Level.ofName? o.logLevel with
  | some level => .ok level
  | none => .error (.badLevel o.logLevel)

/-- The settings that the options make. -/
def settings (o : Options) : Settings :=
  { sources := o.sources, capacity := o.capacity.getD ({} : Settings).capacity }

end Options

end ClientRoster.Daemon
