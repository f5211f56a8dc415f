import ClientRoster.Hint.Feed
import ClientRoster.Notice
import ClientRoster.Roster
import ClientRoster.Settings

/-!
# `ClientRoster.Intake` — applying hints to a roster

An intake withdraws the refused sources, applies the table of its feed and then the stream, and stops. Each hint
changes the roster in one step and is announced by at most one notice; what listens to the notices has no part in it.

## Contents
- `Intake.settle`: what is announced of a change, by how it came out.
- `Intake.handle`: one hint.
- `Step`, `Intake.steps`, `Intake.opening`: hints and purges one after the other.
- `Run`, `Intake.run`: a whole run, cut at the places where the intake waits for its feed.
-/

namespace ClientRoster

/-- One thing that an intake does: the notice about it, if it is announced at all, and the roster as it is then. -/
structure Step where
  notice : Option Notice
  roster : Roster

/-- The roster after some steps. -/
def rosterAfter (r : Roster) (steps : List Step) : Roster :=
  match steps.getLast? with
  | some s => s.roster
  | none => r

/-- What happens between two places where an intake waits: its steps, and the roster at the end. -/
structure Phase where
  steps : List Step
  roster : Roster

/-- The notices of a phase. -/
def Phase.notices (p : Phase) : List Notice := p.steps.filterMap Step.notice

/-- A run of an intake. -/
structure Run where
  /-- What happens before each time that the intake waits for the next hint. -/
  waiting : List Phase
  /-- What happens after the last time. -/
  closing : Phase
  /-- The failure that ended the run before the stream was asked for. -/
  failure : Option Failure

namespace Run

/-- All phases, in order. -/
def phases (r : Run) : List Phase := r.waiting ++ [r.closing]

/-- The steps of the run, in order. -/
def steps (r : Run) : List Step := r.phases.flatMap Phase.steps

/-- The notices of the run, in order. -/
def notices (r : Run) : List Notice := r.steps.filterMap Step.notice

/-- The roster at the end of the run. -/
def roster (r : Run) : Roster := r.closing.roster

/-- The run as a single phase. -/
def asPhase (r : Run) : Phase := ⟨r.steps, r.roster⟩

end Run

namespace Intake

/-! ## One hint -/

/-- Withdraws a source on every client. -/
def clearStep (r : Roster) (s : Source) : Step := ⟨some (.cleared s (r.removedByClear s)), r.clear s⟩

/-- The source whose refusal concerns a hint. The end of a source is carried out in any case. -/
def concern? : Hint → Option Source
  | .sourceDisabled _ => none
  | hint => hint.source?

/-- The step that a change makes which a hint about an address asked for. An address that cannot be used is told to
those who listen; any other failure would not be. -/
def settle (r : Roster) (a : Address) (s : Option Source) : Except Failure Roster → Step
  | .ok changed => ⟨some (.applied a s), changed⟩
  | .error (.unusableAddress b) => ⟨some (.rejected b (.unusableAddress b)), r⟩
  | .error _ => ⟨none, r⟩

@[simp] theorem roster_settle_ok (r changed : Roster) (a : Address) (s : Option Source) :
    (settle r a s (.ok changed)).roster = changed := rfl

/-- A change that failed leaves the roster as it was, whatever is said of it. -/
@[simp] theorem roster_settle_error (r : Roster) (a : Address) (s : Option Source) (failure : Failure) :
    (settle r a s (.error failure)).roster = r := by
  cases failure <;> rfl

/-- Applies a hint whose source is accepted. -/
def apply (r : Roster) : Hint → Step
  | .hosts a s hosts => match r.setHosts a s hosts with
    | .ok none => ⟨some (.ignored s), r⟩
    | .ok (some changed) => settle r a (some s) (.ok changed)
    | .error failure => settle r a (some s) (.error failure)
  | .whois a entry => settle r a (some .whois) (r.setWhois a entry)
  | .unset a s => settle r a (some s) (.ok (r.unset a s))
  | .remove a => settle r a none (.ok (r.erase a))
  | .sourceDisabled s => clearStep r s

/-- One hint: dropped if its source is refused, and applied otherwise. -/
def handle (p : SourcePolicy) (r : Roster) (hint : Hint) : Step :=
  match concern? hint with
  | some s => if p.accepts s then apply r hint else ⟨some (.ignored s), r⟩
  | none => apply r hint

/-! ## One after the other -/

/-- The steps of some hints. -/
def steps (p : SourcePolicy) (r : Roster) : List Hint → List Step
  | [] => []
  | hint :: rest =>
    let step := handle p r hint
    step :: steps p step.roster rest

/-- The roster after some hints. -/
def absorb (p : SourcePolicy) (r : Roster) (hints : List Hint) : Roster :=
  hints.foldl (fun r hint => (handle p r hint).roster) r

/-- The steps that withdraw some sources. -/
def clearSteps (r : Roster) : List Source → List Step
  | [] => []
  | s :: rest =>
    let step := clearStep r s
    step :: clearSteps step.roster rest

/-- The roster without some sources. -/
def purge (r : Roster) (sources : List Source) : Roster := sources.foldl Roster.clear r

/-- The start of a run: the refused sources are announced and withdrawn. -/
def opening (p : SourcePolicy) (r : Roster) : List Step :=
  ⟨some (.started p.refused), r⟩ :: clearSteps r p.refused

theorem rosterAfter_cons (r : Roster) (step : Step) (rest : List Step) :
    rosterAfter r (step :: rest) = rosterAfter step.roster rest := by
  cases rest with
  | nil => rfl
  | cons next more =>
    unfold rosterAfter
    rw [List.getLast?_cons_cons]
    cases h : (next :: more).getLast? with
    | none => simp at h
    | some last => rfl

theorem rosterAfter_steps (p : SourcePolicy) (r : Roster) (hints : List Hint) :
    rosterAfter r (steps p r hints) = absorb p r hints := by
  induction hints generalizing r with
  | nil => rfl
  | cons hint rest ih =>
    rw [steps, rosterAfter_cons, ih]
    rfl

theorem rosterAfter_clearSteps (r : Roster) (sources : List Source) :
    rosterAfter r (clearSteps r sources) = purge r sources := by
  induction sources generalizing r with
  | nil => rfl
  | cons s rest ih =>
    rw [clearSteps, rosterAfter_cons, ih]
    rfl

theorem rosterAfter_opening (p : SourcePolicy) (r : Roster) :
    rosterAfter r (opening p r) = purge r p.refused := by
  rw [opening, rosterAfter_cons, rosterAfter_clearSteps]

/-! ## A whole run -/

/-- One phase for each step. -/
def singly (steps : List Step) : List Phase := steps.map fun step => ⟨[step], step.roster⟩

/-- The phase in which the intake announces that it stops. -/
def stopPhase (r : Roster) (reason : StopReason) : Phase := ⟨[⟨some (.stopped reason), r⟩], r⟩

/-- The failure of a run whose feed did not deliver its table. -/
def tableFailure (feed : Feed) (cause : Failure) : Failure := .feed (feed.name ++ ": " ++ cause.message)

/-- A run on a roster, up to the end of the stream or to a signal that comes when the stream has gone silent. -/
def run (p : SourcePolicy) (r : Roster) (feed : Feed) (reason : StopReason) : Run :=
  let opened := opening p r
  let purged := rosterAfter r opened
  match feed.initial with
  | .error cause => ⟨[], ⟨opened, purged⟩, some (tableFailure feed cause)⟩
  | .ok table =>
    let tabled := steps p purged table
    let filled := rosterAfter purged tabled
    let streamed := steps p filled feed.stream
    ⟨⟨opened ++ tabled, filled⟩ :: singly streamed, stopPhase (rosterAfter filled streamed) reason, none⟩

end Intake

end ClientRoster
