import ClientRoster.Proofs.Intake.Accounted

/-!
# `ClientRoster.Proofs.Intake.Paced` — a run, one turn at a time

A run is given as a whole, with all its steps. Whoever wants to say what others do in the meantime has to take it apart
into turns: an intake withdraws one refused source after the other, asks its feed for the table, applies one hint after
the other, and stops. Taken turn by turn, it makes the steps of the whole run, in their order, and ends as the run does.

## Contents
- `Stage`, `Progress`, `turn`: how far an intake has come, and what it does next.
- `Progress.toCome`, `Progress.ending`, `Progress.turnsLeft`: what is still to happen, from the stage and the roster.
- `notices_turn`, `ending_turn`, `turnsLeft_turn`: **a turn makes the next notice, and leaves the rest as it was to
  come**.
- `notices_idle`, `ending_idle`, `turnsLeft_idle`: at its start, all of a run is still to come.
-/

namespace ClientRoster

/-- What an intake does next. -/
inductive Stage
  /-- It has not begun. -/
  | idle
  /-- It withdraws these sources, and then asks its feed for the table. -/
  | withdrawing (sources : List Source)
  /-- It applies these hints, and then stops. -/
  | applying (hints : List Hint)
  /-- Nothing; a failure is why it gave up. -/
  | ended (failure : Option Failure)

/-- How far an intake has come, and the roster that it has made so far. -/
structure Progress where
  stage : Stage
  roster : Roster

namespace Intake

variable (p : SourcePolicy) (feed : Feed) (reason : StopReason)

/-- One turn of an intake: what it announces, if anything, and how far it has come then. -/
def turn (now : Progress) : Option Notice × Progress :=
  match now.stage with
  | .idle => (some (.started p.refused), ⟨.withdrawing p.refused, now.roster⟩)
  | .withdrawing (s :: rest) =>
    let step := clearStep now.roster s
    (step.notice, ⟨.withdrawing rest, step.roster⟩)
  | .withdrawing [] => match feed.initial with
    | .error cause => (none, ⟨.ended (some (tableFailure feed cause)), now.roster⟩)
    | .ok table => (none, ⟨.applying (table ++ feed.stream), now.roster⟩)
  | .applying (hint :: rest) =>
    let step := handle p now.roster hint
    (step.notice, ⟨.applying rest, step.roster⟩)
  | .applying [] => (some (.stopped reason), ⟨.ended none, now.roster⟩)
  | .ended failure => (none, ⟨.ended failure, now.roster⟩)

/-! ## What is still to come -/

/-- The steps that apply some hints, and the last one. -/
def hintSteps (r : Roster) (hints : List Hint) : List Step :=
  steps p r hints ++ (stopPhase (absorb p r hints) reason).steps

/-- The steps behind the opening. -/
def tableSteps (r : Roster) : List Step :=
  match feed.initial with
  | .error _ => []
  | .ok table => hintSteps p reason r (table ++ feed.stream)

/-- The steps that are still to be made. -/
def toCome (now : Progress) : List Step :=
  match now.stage with
  | .idle => opening p now.roster ++ tableSteps p feed reason (purge now.roster p.refused)
  | .withdrawing sources =>
    clearSteps now.roster sources ++ tableSteps p feed reason (purge now.roster sources)
  | .applying hints => hintSteps p reason now.roster hints
  | .ended _ => []

/-- The failure that the feed will be the cause of. -/
def tableFailure? : Option Failure :=
  match feed.initial with
  | .error cause => some (tableFailure feed cause)
  | .ok _ => none

/-- The roster and the failure at the end. -/
def ending (now : Progress) : Roster × Option Failure :=
  (rosterAfter now.roster (toCome p feed reason now), match now.stage with
    | .idle | .withdrawing _ => tableFailure? feed
    | .applying _ => none
    | .ended failure => failure)

/-- How many turns there are until the end: one for each step, and one for asking the feed. -/
def turnsLeft (now : Progress) : Nat :=
  (toCome p feed reason now).length + match now.stage with
    | .idle | .withdrawing _ => 1
    | .applying _ | .ended _ => 0

variable {p feed reason}

/-- The turn that asks for the table makes no step. -/
theorem toCome_asked (r : Roster) :
    toCome p feed reason (turn p feed reason ⟨.withdrawing [], r⟩).2 = tableSteps p feed reason r := by
  unfold turn tableSteps
  cases feed.initial with
  | error cause => rfl
  | ok table => rfl

/-- **A turn announces the next notice that is to come.** -/
theorem notices_turn (now : Progress) :
    (toCome p feed reason now).filterMap Step.notice = (turn p feed reason now).1.toList ++
      (toCome p feed reason (turn p feed reason now).2).filterMap Step.notice := by
  obtain ⟨stage, r⟩ := now
  cases stage with
  | idle => rfl
  | withdrawing sources =>
    cases sources with
    | nil =>
      rw [toCome_asked]
      unfold turn
      cases feed.initial <;> rfl
    | cons s rest => rfl
  | applying hints =>
    cases hints with
    | nil => rfl
    | cons hint rest =>
      show (handle p r hint :: hintSteps p reason (handle p r hint).roster rest).filterMap Step.notice =
        (handle p r hint).notice.toList ++ (hintSteps p reason (handle p r hint).roster rest).filterMap Step.notice
      cases hnotice : (handle p r hint).notice with
      | none => exact List.filterMap_cons_none hnotice
      | some notice => exact List.filterMap_cons_some hnotice
  | ended failure => rfl

/-- **A turn does not change how it all will end.** -/
theorem ending_turn (now : Progress) :
    ending p feed reason (turn p feed reason now).2 = ending p feed reason now := by
  obtain ⟨stage, r⟩ := now
  cases stage with
  | idle =>
    show (rosterAfter r _, tableFailure? feed) =
      (rosterAfter r (⟨some (.started p.refused), r⟩ :: _), tableFailure? feed)
    rw [rosterAfter_cons]
    rfl
  | withdrawing sources =>
    cases sources with
    | nil =>
      unfold ending turn tableFailure? toCome tableSteps
      cases feed.initial <;> rfl
    | cons s rest =>
      show (rosterAfter (r.clear s) _, tableFailure? feed) = (rosterAfter r (clearStep r s :: _), tableFailure? feed)
      rw [rosterAfter_cons]
      rfl
  | applying hints =>
    cases hints with
    | nil => rfl
    | cons hint rest =>
      show (rosterAfter (handle p r hint).roster _, none) = (rosterAfter r (handle p r hint :: _), none)
      rw [rosterAfter_cons]
      rfl
  | ended failure => rfl

/-- **Each turn is one turn less to make.** -/
theorem turnsLeft_turn (now : Progress) :
    turnsLeft p feed reason (turn p feed reason now).2 = turnsLeft p feed reason now - 1 := by
  obtain ⟨stage, r⟩ := now
  cases stage with
  | idle => rfl
  | withdrawing sources =>
    cases sources with
    | nil =>
      unfold turnsLeft turn toCome tableSteps
      cases feed.initial <;> rfl
    | cons s rest => rfl
  | applying hints =>
    cases hints with
    | nil => rfl
    | cons hint rest => rfl
  | ended failure => rfl

/-! ## The start and the end -/

theorem toCome_idle (r : Roster) : toCome p feed reason ⟨.idle, r⟩ = (run p r feed reason).steps := by
  rw [steps_run]
  unfold toCome tableSteps hintSteps
  cases feed.initial with
  | error cause => exact List.append_nil _
  | ok table => rfl

theorem notices_idle (r : Roster) :
    (toCome p feed reason ⟨.idle, r⟩).filterMap Step.notice = (run p r feed reason).notices := by
  rw [toCome_idle]
  rfl

theorem ending_idle (r : Roster) :
    ending p feed reason ⟨.idle, r⟩ = ((run p r feed reason).roster, (run p r feed reason).failure) := by
  unfold ending
  rw [toCome_idle, rosterAfter_run]
  unfold tableFailure? run
  cases feed.initial <;> rfl

theorem turnsLeft_idle (r : Roster) : turnsLeft p feed reason ⟨.idle, r⟩ = (run p r feed reason).steps.length + 1 := by
  unfold turnsLeft
  rw [toCome_idle]

/-- An intake has ended exactly when no turn is left. -/
theorem turnsLeft_eq_zero_iff {now : Progress} :
    turnsLeft p feed reason now = 0 ↔ ∃ failure, now.stage = .ended failure := by
  obtain ⟨stage, r⟩ := now
  cases stage with
  | idle => simp [turnsLeft]
  | withdrawing sources => simp [turnsLeft]
  | applying hints => simp [turnsLeft, toCome, hintSteps, stopPhase]
  | ended failure => simp [turnsLeft, toCome]

end Intake

end ClientRoster
