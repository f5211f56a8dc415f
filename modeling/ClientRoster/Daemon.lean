import ClientRoster.Daemon.Environment
import ClientRoster.Daemon.Report
import ClientRoster.Notice.Queue

/-!
# `ClientRoster.Daemon` — the program

The daemon reads its settings from the environment and hints from its input, one per line, until the input ends.
It logs what it does and what becomes of the clients.

## Contents
- `ExitCode`, `Outcome`.
- `Daemon.run`: a whole run, environment and input in, exit code and log out. What the daemon itself logs and what it
  reports about notices are two lists, each in order, since the two are written independently of each other.
- `Session`: the same run while it goes on, fed with what its input delivers.
-/

namespace ClientRoster.Daemon

/-- How the program ends. -/
inductive ExitCode
  /-- The input was read to its end. -/
  | clean
  /-- The environment is not usable. -/
  | badEnvironment
  /-- The intake could not work. -/
  | failed
  /-- No queue can be as large as the settings ask. -/
  | aborted
  deriving DecidableEq, Repr

/-- The number of an exit code. -/
def ExitCode.number : ExitCode → Nat
  | clean => 0
  | badEnvironment => 1
  | failed => 2
  | aborted => 101

/-! ## What the daemon logs about itself -/

/-- What the daemon says when it starts. -/
def greeting (p : SourcePolicy) : List LogRecord :=
  info "Starting clientinfod daemon" :: p.refused.map fun source => info ("Source " ++ source.name ++ " disabled")

/-- What the daemon says before it reads its input. -/
def invitation : LogRecord := info "Reading hints from stdin"

/-- What the daemon says when its input has ended. -/
def farewell (r : Roster) : LogRecord := info ("Shutting down daemon with " ++ toString r.size ++ " client(s)")

/-- What the daemon says when its intake could not work. -/
def trouble (failure : Failure) : LogRecord := ⟨.error, "Daemon error: " ++ failure.message⟩

/-- How the program ends when there is no queue for notices, and what it says then. -/
def refusal : QueueError → ExitCode × List LogRecord
  | .refused failure => (.failed, [trouble failure])
  | .tooLarge _ => (.aborted, [])

/-! ## A whole run -/

/-- What a run of the daemon leaves behind. -/
structure Outcome where
  exitCode : ExitCode
  /-- What it says before it gives up. -/
  complaints : List String := []
  /-- What it logs about itself. -/
  log : List LogRecord := []
  /-- What it logs about notices. -/
  reports : List LogRecord := []
  /-- The clients that it knows at its end. -/
  roster : Roster := .empty
  deriving DecidableEq, Repr

/-- The outcome in a log that is set to a level. -/
def Outcome.shownAt (level : Level) (o : Outcome) : Outcome :=
  { o with log := o.log.filter level.shows, reports := o.reports.filter level.shows }

/-- The options of an environment and the level of the log, if both are in order. -/
def configure (env : Environment) : Except OptionsError (Options × Level) := do
  let options ← Options.ofEnvironment env
  let level ← options.check
  .ok (options, level)

/-- What the daemon makes of a run of its intake. -/
def conclude (p : SourcePolicy) (run : Run) : Outcome :=
  let (exitCode, last) := match run.failure with
    | none => (ExitCode.clean, farewell run.roster)
    | some failure => (ExitCode.failed, trouble failure)
  { exitCode := exitCode
    log := greeting p ++ [invitation, last]
    reports := reports run.steps
    roster := run.roster }

/-- Works with some settings on a feed, up to its end. -/
def serve (settings : Settings) (feed : Feed) : Outcome :=
  match NoticeQueue.create settings with
  | .error e => { exitCode := (refusal e).1, log := greeting settings.sources ++ (refusal e).2 }
  | .ok _ => conclude settings.sources (Intake.run settings.sources .empty feed .feedEnded)

/-- A whole run: environment and input in, exit code and log out. -/
def run (env : Environment) (input : List Text.Delivery) : Outcome :=
  match configure env with
  | .error e => { exitCode := .badEnvironment, complaints := [e.complaint] }
  | .ok (options, level) => (serve options.settings (LineFeed.new "stdin" input).toFeed.1).shownAt level

/-! ## A run while it goes on -/

/-- The daemon between its start and its end. -/
structure Session where
  level : Level
  policy : SourcePolicy
  reader : Text.LineReader := {}
  roster : Roster := .empty

namespace Session

/-- The records that the log shows. -/
def shown (s : Session) (records : List LogRecord) : List LogRecord := records.filter s.level.shows

/-- The session after some steps. -/
def advance (s : Session) (steps : List Step) : Session := { s with roster := rosterAfter s.roster steps }

/-- Starts the intake. -/
def start (s : Session) : List LogRecord × Session :=
  let steps := Intake.opening s.policy s.roster
  (s.shown (reports steps), s.advance steps)

/-- Applies the hints of some lines. -/
def applyLines (s : Session) (lines : List Text.Bytes) : List LogRecord × Session :=
  let steps := Intake.steps s.policy s.roster (lines.filterMap Hint.ofBytes?)
  (s.shown (reports steps), s.advance steps)

/-- Takes what the input delivers. -/
def receive (s : Session) (d : Text.Delivery) : List LogRecord × Session :=
  let (lines, reader) := s.reader.deliver d
  { s with reader := reader }.applyLines lines

/-- Takes some deliveries, one after the other. -/
def receiveAll (s : Session) : List Text.Delivery → List LogRecord × Session
  | [] => ([], s)
  | d :: rest =>
    let (records, s) := s.receive d
    let (more, s) := receiveAll s rest
    (records ++ more, s)

/-- Ends the session: the last line counts, and the intake stops. -/
def finish (s : Session) : List LogRecord × Session :=
  let (records, s) := s.applyLines s.reader.last
  let stop := Intake.stopPhase s.roster .feedEnded
  (records ++ s.shown (reports stop.steps), s.advance stop.steps)

/-- A session from its start to the end of its input. -/
def outcome (s : Session) (input : List Text.Delivery) : Outcome :=
  let (opening, started) := s.start
  let (middle, fed) := started.receiveAll input
  let (closing, ended) := fed.finish
  { exitCode := .clean
    log := s.shown (greeting s.policy ++ [invitation]) ++ ended.shown [farewell ended.roster]
    reports := opening ++ middle ++ closing
    roster := ended.roster }

end Session

end ClientRoster.Daemon
