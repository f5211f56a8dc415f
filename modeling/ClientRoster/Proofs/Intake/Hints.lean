import ClientRoster.Intake
import ClientRoster.Proofs.Roster.Cell
import ClientRoster.Proofs.Roster.Reachable

/-!
# `ClientRoster.Proofs.Intake.Hints` — hints as changes

A hint that is admitted changes the roster as its change does, and one that is dropped does not. So what an intake
makes of a roster is the result of a list of changes, which the policy and the hints determine.

## Contents
- `Hint.change`, `SourcePolicy.admits`, and `roster_handle`: one hint.
- `absorb_eq`, `steps_append`: many hints.
- `steps_run`, `roster_run`: the steps of a whole run, and what it leaves.
- `Reachable.absorb`, `Reachable.run`: intakes leave reachable rosters.
-/

namespace ClientRoster

/-- The change that a hint asks for. -/
def Hint.change : Hint → Change
  | hosts a s names => .setHosts a s names
  | whois a entry => .setWhois a entry
  | unset a s => .unset a s
  | remove a => .erase a
  | sourceDisabled s => .clear s

theorem Hint.lawful_change (hint : Hint) : hint.change.Lawful := by
  cases hint <;> trivial

/-- Is a hint applied? Its source has to be accepted, unless it has none or announces the end of one. -/
def SourcePolicy.admits (p : SourcePolicy) (hint : Hint) : Bool :=
  match Intake.concern? hint with
  | some s => p.accepts s
  | none => true

namespace Intake

open Roster

/-! ## One hint -/

theorem roster_apply (r : Roster) (hint : Hint) : (apply r hint).roster = r.perform hint.change := by
  cases hint with
  | hosts a s names =>
    simp only [apply, perform, attempt, Hint.change]
    split <;> simp_all
  | whois a entry =>
    simp only [apply, perform, attempt, Hint.change]
    cases r.setWhois a entry <;> simp [Except.map]
  | unset a s => rfl
  | remove a => rfl
  | sourceDisabled s => rfl

/-- **An admitted hint makes its change, and any other makes none.** -/
theorem roster_handle (p : SourcePolicy) (r : Roster) (hint : Hint) :
    (handle p r hint).roster = if p.admits hint then r.perform hint.change else r := by
  unfold handle SourcePolicy.admits
  cases concern? hint with
  | none => simp [roster_apply]
  | some s => by_cases hs : p.accepts s = true <;> simp [hs, roster_apply]

theorem named_handle {r : Roster} (h : r.Named) (p : SourcePolicy) (hint : Hint) :
    (handle p r hint).roster.Named := by
  rw [roster_handle]
  split
  · exact named_perform h hint.lawful_change
  · exact h

/-! ## Many hints -/

theorem absorb_cons (p : SourcePolicy) (r : Roster) (hint : Hint) (rest : List Hint) :
    absorb p r (hint :: rest) = absorb p (handle p r hint).roster rest := rfl

theorem absorb_eq (p : SourcePolicy) (r : Roster) (hints : List Hint) :
    absorb p r hints = r.performAll ((hints.filter p.admits).map Hint.change) := by
  induction hints generalizing r with
  | nil => rfl
  | cons hint rest ih =>
    rw [absorb_cons, ih, roster_handle]
    by_cases ha : p.admits hint = true
    · rw [if_pos ha, List.filter_cons_of_pos ha]
      rfl
    · rw [if_neg ha, List.filter_cons_of_neg ha]

theorem absorb_append (p : SourcePolicy) (r : Roster) (front back : List Hint) :
    absorb p r (front ++ back) = absorb p (absorb p r front) back :=
  List.foldl_append

theorem purge_eq (r : Roster) (sources : List Source) : purge r sources = r.performAll (sources.map .clear) := by
  rw [performAll, List.foldl_map]
  rfl

theorem steps_append (p : SourcePolicy) (r : Roster) (front back : List Hint) :
    steps p r (front ++ back) = steps p r front ++ steps p (absorb p r front) back := by
  induction front generalizing r with
  | nil => rfl
  | cons hint rest ih => exact congrArg (handle p r hint :: ·) (ih (handle p r hint).roster)

/-! ## A whole run -/

theorem flatMap_singly (ss : List Step) : (singly ss).flatMap Phase.steps = ss := by
  induction ss with
  | nil => rfl
  | cons step rest ih =>
    simp only [singly, List.map_cons, List.flatMap_cons]
    exact congrArg (step :: ·) ih

/-- A run opens, applies the table and the stream as if they were one list, and stops; without its table, it opens and
does nothing more. -/
theorem steps_run (p : SourcePolicy) (r : Roster) (feed : Feed) (reason : StopReason) :
    (run p r feed reason).steps = match feed.initial with
      | .error _ => opening p r
      | .ok table =>
        let hints := table ++ feed.stream
        opening p r ++ (steps p (purge r p.refused) hints ++
          (stopPhase (absorb p (purge r p.refused) hints) reason).steps) := by
  unfold run Run.steps Run.phases
  cases feed.initial with
  | error cause => simp
  | ok table =>
    simp only [rosterAfter_opening, rosterAfter_steps, steps_append, absorb_append, List.cons_append,
      List.flatMap_cons, List.flatMap_append, flatMap_singly, List.flatMap_nil, List.append_nil, List.append_assoc]

/-- **What a run leaves:** the roster without the refused sources, changed by the table and then by the stream. -/
theorem roster_run (p : SourcePolicy) (r : Roster) (feed : Feed) (reason : StopReason) :
    (run p r feed reason).roster = match feed.initial with
      | .error _ => purge r p.refused
      | .ok table => absorb p (purge r p.refused) (table ++ feed.stream) := by
  unfold run Run.roster
  cases feed.initial with
  | error cause => exact rosterAfter_opening p r
  | ok table =>
    simp only [stopPhase, rosterAfter_opening, rosterAfter_steps]
    rw [absorb_append]

end Intake

/-! ## Reachability -/

namespace Roster

theorem Reachable.purge {r : Roster} (h : r.Reachable) (sources : List Source) :
    (Intake.purge r sources).Reachable := by
  rw [Intake.purge_eq]
  refine h.performAll ?_
  intro c hc
  obtain ⟨s, -, rfl⟩ := List.mem_map.mp hc
  trivial

theorem Reachable.absorb {r : Roster} (h : r.Reachable) (p : SourcePolicy) (hints : List Hint) :
    (Intake.absorb p r hints).Reachable := by
  rw [Intake.absorb_eq]
  refine h.performAll ?_
  intro c hc
  obtain ⟨hint, -, rfl⟩ := List.mem_map.mp hc
  exact hint.lawful_change

/-- **An intake leaves a reachable roster.** -/
theorem Reachable.run {r : Roster} (h : r.Reachable) (p : SourcePolicy) (feed : Feed) (reason : StopReason) :
    (Intake.run p r feed reason).roster.Reachable := by
  rw [Intake.roster_run]
  cases feed.initial with
  | error cause => exact h.purge p.refused
  | ok table => exact (h.purge p.refused).absorb p _

end Roster

end ClientRoster
