import ClientRoster.Daemon
import ClientRoster.Proofs.Intake.Hints

/-!
# `ClientRoster.Proofs.Daemon.Session` — a run while it goes on, and a run as a whole

A session takes its input piece by piece and writes as it goes. It ends as a run does that has all of its input at once,
with the same records in its log.

## Contents
- `applyLines_eq`, `receiveAll_eq`: what a session makes of some lines, and of some deliveries.
- **`outcome_eq_conclude`**: from the start to the end of the input.
-/

namespace ClientRoster.Daemon

open Text

theorem reports_append (front back : List Step) : reports (front ++ back) = reports front ++ reports back :=
  List.filterMap_append

namespace Session

theorem shown_append (s : Session) (front back : List LogRecord) :
    s.shown (front ++ back) = s.shown front ++ s.shown back :=
  List.filter_append front back

/-- The start of a session is the opening of its intake. -/
theorem start_eq (s : Session) :
    s.start = (s.shown (reports (Intake.opening s.policy s.roster)),
      { s with roster := Intake.purge s.roster s.policy.refused }) := by
  rw [start, advance, Intake.rosterAfter_opening]

/-- What a session makes of some lines is what its intake makes of their hints. -/
theorem applyLines_eq (s : Session) (lines : List Bytes) :
    let hints := lines.filterMap Hint.ofBytes?
    s.applyLines lines = (s.shown (reports (Intake.steps s.policy s.roster hints)),
      { s with roster := Intake.absorb s.policy s.roster hints }) := by
  intro hints
  rw [applyLines, advance, Intake.rosterAfter_steps]

/-- **Deliveries one after the other** are as good as the lines that they end, all at once. -/
theorem receiveAll_eq (s : Session) (input : List Delivery) :
    let read := s.reader.deliverAll input
    let hints := read.1.filterMap Hint.ofBytes?
    s.receiveAll input = (s.shown (reports (Intake.steps s.policy s.roster hints)),
      { s with reader := read.2, roster := Intake.absorb s.policy s.roster hints }) := by
  induction input generalizing s with
  | nil => rfl
  | cons d rest ih =>
    simp only [receiveAll, receive, applyLines_eq, ih, LineReader.deliverAll, List.filterMap_append,
      Intake.steps_append, Intake.absorb_append, reports_append, shown_append]
    rfl

/-- The last line counts, and then the intake stops. -/
theorem finish_eq (s : Session) :
    let hints := s.reader.last.filterMap Hint.ofBytes?
    let left := Intake.absorb s.policy s.roster hints
    s.finish = (s.shown (reports (Intake.steps s.policy s.roster hints ++ (Intake.stopPhase left .feedEnded).steps)),
      { s with roster := left }) := by
  intro hints left
  simp only [finish, applyLines_eq, reports_append, shown_append]
  rfl

/-- **A session that begins at the start of its input ends as a run of its intake on the whole input.** -/
theorem outcome_eq_conclude {s : Session} (h : s.reader = {}) (name : String) (input : List Delivery) :
    s.outcome input =
      (conclude s.policy (Intake.run s.policy s.roster (LineFeed.new name input).toFeed.1 .feedEnded)).shownAt
        s.level := by
  -- the lines are those that the deliveries end, and the one that they leave unfinished
  have hstream : (LineFeed.new name input).toFeed.1.stream =
      (s.reader.deliverAll input).1.filterMap Hint.ofBytes? ++
        (s.reader.deliverAll input).2.last.filterMap Hint.ofBytes? := by
    rw [h, ← List.filterMap_append]
    rfl
  have hinitial : (LineFeed.new name input).toFeed.1.initial = .ok [] := rfl
  have hfailure : (Intake.run s.policy s.roster (LineFeed.new name input).toFeed.1 .feedEnded).failure = none := rfl
  have hlog (last : LogRecord) : greeting s.policy ++ [invitation, last] = greeting s.policy ++ [invitation] ++ [last] :=
    (List.append_assoc _ [invitation] [last]).symm
  simp only [outcome, start_eq, receiveAll_eq, finish_eq, conclude, Outcome.shownAt, hfailure, hlog, Intake.steps_run,
    Intake.roster_run, hinitial, hstream, List.nil_append]
  simp only [shown, Intake.steps_append, Intake.absorb_append, reports_append, List.filter_append, List.append_assoc]

end Session

end ClientRoster.Daemon
