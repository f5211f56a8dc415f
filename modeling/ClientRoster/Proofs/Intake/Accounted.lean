import Mathlib.Tactic.ByContra
import ClientRoster.Proofs.Intake.Announced

/-!
# `ClientRoster.Proofs.Intake.Accounted` — every change is announced

Nobody who listens to an intake needs to look at the roster to know where it has changed. A notice that a hint was
applied names the only address whose record may have changed; a notice that a source was cleared stands for one slot of
every record, and for as many records as it says; and every other notice stands for no change at all. So two looks at
one record, with neither of the two notices between them, show the same.

## Contents
- `Step.Accounts`: the notice of a step says what the step changes.
- `accounts_handle`, `accounts_clearStep`: **one hint**, and one source that is withdrawn.
- `Accounted`, `rosterAt`: steps one after the other, and the roster between them; `accounted_run`.
- `Notice.Concerns`, **`exists_concerns_of_client?_ne`**: what lies between two looks at one record.
-/

namespace ClientRoster

/-- May the record of an address change with the step that a notice is about? -/
def Notice.Concerns (a : Address) (notice : Notice) : Prop :=
  (∃ s, notice = .applied a s) ∨ ∃ s removed, notice = .cleared s removed

/-- The notice of a step says what the step changes. -/
structure Step.Accounts (before : Roster) (step : Step) : Prop where
  /-- A record changes only with a notice that concerns its address. -/
  announced : ∀ a, step.roster.client? a ≠ before.client? a → ∃ notice, step.notice = some notice ∧ notice.Concerns a
  /-- An applied hint leaves every other record alone. -/
  applied : ∀ a s, step.notice = some (.applied a s) → ∀ b, b ≠ a → step.roster.client? b = before.client? b
  /-- A hint that was ignored or rejected changes nothing. -/
  ignored : ∀ s, step.notice = some (.ignored s) → step.roster = before
  rejected : ∀ a failure, step.notice = some (.rejected a failure) → step.roster = before
  /-- A source that was cleared loses its slot on every client that stays, and the other slots are left alone. -/
  cleared : ∀ s removed, step.notice = some (.cleared s removed) → ∀ a d, step.roster.client? a = some d →
    ∃ c, before.client? a = some c ∧ d.addr = c.addr ∧ d.slot? s = none ∧ ∀ t, t ≠ s → d.slot? t = c.slot? t
  /-- The clients that went with it are counted. -/
  removed : ∀ s removed, step.notice = some (.cleared s removed) → step.roster.size + removed = before.size

namespace Intake

open Roster

variable {p : SourcePolicy} {r : Roster}

/-! ## One step -/

/-- A step that changes nothing has nothing to account for, unless it speaks of a source that was cleared. -/
theorem accounts_of_roster_eq {step : Step} (h : step.roster = r)
    (hnotice : ∀ s removed, step.notice ≠ some (.cleared s removed)) : step.Accounts r where
  announced := by
    intro a ha
    exact absurd (congrArg (·.client? a) h) ha
  applied := by
    intro a s _ b _
    rw [h]
  ignored := fun _ _ => h
  rejected := fun _ _ _ => h
  cleared := by
    intro s removed hcleared
    exact absurd hcleared (hnotice s removed)
  removed := by
    intro s removed hcleared
    exact absurd hcleared (hnotice s removed)

theorem accounts_idle {notice : Notice} (h : ∀ s removed, notice ≠ .cleared s removed) (r : Roster) :
    Step.Accounts r ⟨some notice, r⟩ := by
  have hsame : (⟨some notice, r⟩ : Step).roster = r := rfl
  apply accounts_of_roster_eq hsame
  intro s removed hcleared
  exact h s removed (Option.some.inj hcleared)

/-- A change that was asked for on behalf of one address is accounted for if it keeps to that address. -/
theorem accounts_settle {a : Address} {s : Option Source} {outcome : Except Failure Roster}
    (h : ∀ changed, outcome = .ok changed → ∀ b, b ≠ a → changed.client? b = r.client? b) :
    (settle r a s outcome).Accounts r := by
  cases outcome with
  | error failure =>
    apply accounts_of_roster_eq (roster_settle_error r a s failure)
    intro t removed
    cases failure <;> simp [settle]
  | ok changed =>
    constructor
    case announced =>
      intro b hb
      refine ⟨.applied a s, rfl, ?_⟩
      by_cases hba : b = a
      · exact Or.inl ⟨s, by rw [hba]⟩
      · exact absurd (h changed rfl b hba) hb
    case applied =>
      intro b t hnotice c hc
      obtain ⟨rfl, -⟩ : a = b ∧ s = t := by simpa [settle] using hnotice
      exact h changed rfl c hc
    case ignored => simp [settle]
    case rejected => simp [settle]
    case cleared => simp [settle]
    case removed => simp [settle]

theorem client?_upsert {a b : Address} {f : Client → Client} (hf : ∀ c, (f c).addr = c.addr) {changed : Roster}
    (h : r.upsert a f = .ok changed) (hb : b ≠ a) : changed.client? b = r.client? b := by
  unfold upsert at h
  cases hc : r.client? a with
  | some c =>
    rw [hc] at h
    obtain rfl : r.add (f c) = changed := Except.ok.inj h
    rw [client?_add, hf, addr_of_client? hc, if_neg hb]
  | none =>
    rw [hc] at h
    cases hnew : Client.create? a with
    | error failure => simp [hnew, Except.map] at h
    | ok c =>
      rw [hnew] at h
      obtain rfl : r.add (f c) = changed := Except.ok.inj h
      obtain ⟨-, rfl⟩ := Client.create?_eq_ok_iff.mp hnew
      rw [client?_add, hf]
      exact if_neg hb

theorem client?_setHosts {a b : Address} {s : Source} {names : List String} {changed : Roster}
    (h : r.setHosts a s names = .ok (some changed)) (hb : b ≠ a) : changed.client? b = r.client? b := by
  unfold setHosts at h
  split at h
  · cases hup : r.upsert a (·.setHosts s names) with
    | error failure => simp [hup, Except.map] at h
    | ok t =>
      obtain rfl : t = changed := by simpa [hup, Except.map] using h
      exact client?_upsert (fun c => Client.addr_setHosts c s names) hup hb
  · simp at h

/-- **A source that is withdrawn.** -/
theorem accounts_clearStep (r : Roster) (s : Source) : (clearStep r s).Accounts r := by
  constructor
  case announced =>
    intro a _
    exact ⟨_, rfl, Or.inr ⟨s, _, rfl⟩⟩
  case applied => simp [clearStep]
  case ignored => simp [clearStep]
  case rejected => simp [clearStep]
  case cleared =>
    intro t removed hnotice a d hd
    obtain ⟨rfl, -⟩ : s = t ∧ r.removedByClear s = removed := by simpa [clearStep] using hnotice
    have hkept : ((r.client? a).map (·.unset s)).filter (!·.isVacant) = some d := by
      rw [← client?_clear]
      exact hd
    obtain ⟨c, hc, rfl⟩ := Option.map_eq_some_iff.mp (Option.filter_eq_some_iff.mp hkept).1
    refine ⟨c, hc, Client.addr_unset c s, ?_, ?_⟩
    · rw [Client.slot?_unset, if_pos rfl]
    · intro u hu
      rw [Client.slot?_unset, if_neg hu]
  case removed =>
    intro t removed hnotice
    obtain ⟨rfl, rfl⟩ : s = t ∧ r.removedByClear s = removed := by simpa [clearStep] using hnotice
    show (r.clear s).size + (r.size - (r.clear s).size) = r.size
    have hle := size_clear_le r s
    omega

theorem accounts_apply (r : Roster) (hint : Hint) : (apply r hint).Accounts r := by
  cases hint with
  | hosts a s names =>
    rw [apply]
    split
    · apply accounts_idle
      simp
    · next changed hchanged =>
      apply accounts_settle
      intro t ht b hb
      obtain rfl : changed = t := Except.ok.inj ht
      exact client?_setHosts hchanged hb
    · next failure hfailure =>
      apply accounts_settle
      intro t ht
      cases ht
  | whois a entry =>
    apply accounts_settle
    intro changed hchanged b hb
    exact client?_upsert (fun c => Client.addr_setWhois c entry) hchanged hb
  | unset a s =>
    rw [apply]
    apply accounts_settle
    intro changed hchanged b hb
    obtain rfl : r.unset a s = changed := Except.ok.inj hchanged
    rw [client?_unset, if_neg hb]
  | remove a =>
    rw [apply]
    apply accounts_settle
    intro changed hchanged b hb
    obtain rfl : r.erase a = changed := Except.ok.inj hchanged
    rw [client?_erase, if_neg hb]
  | sourceDisabled s => exact accounts_clearStep r s

/-- **One hint,** whether the policy lets it pass or not. -/
theorem accounts_handle (p : SourcePolicy) (r : Roster) (hint : Hint) : (handle p r hint).Accounts r := by
  unfold handle
  cases concern? hint with
  | none => exact accounts_apply r hint
  | some s =>
    show (if p.accepts s then apply r hint else ⟨some (.ignored s), r⟩ : Step).Accounts r
    split
    · exact accounts_apply r hint
    · apply accounts_idle
      simp

/-! ## Steps one after the other -/

/-- Each of some steps accounts for what it changes in the roster that the steps before it left. -/
def Accounted (r : Roster) : List Step → Prop
  | [] => True
  | step :: rest => step.Accounts r ∧ Accounted step.roster rest

/-- The roster when so many of some steps have been made. -/
def rosterAt (r : Roster) (steps : List Step) (n : Nat) : Roster := rosterAfter r (steps.take n)

theorem rosterAfter_append (r : Roster) (front back : List Step) :
    rosterAfter r (front ++ back) = rosterAfter (rosterAfter r front) back := by
  induction front generalizing r with
  | nil => rfl
  | cons step rest ih => rw [List.cons_append, rosterAfter_cons, ih, rosterAfter_cons]

theorem accounted_append {front back : List Step} (hfront : Accounted r front)
    (hback : Accounted (rosterAfter r front) back) : Accounted r (front ++ back) := by
  induction front generalizing r with
  | nil => exact hback
  | cons step rest ih =>
    rw [rosterAfter_cons] at hback
    exact ⟨hfront.1, ih hfront.2 hback⟩

theorem accounted_steps (p : SourcePolicy) (r : Roster) (hints : List Hint) : Accounted r (steps p r hints) := by
  induction hints generalizing r with
  | nil => trivial
  | cons hint rest ih => exact ⟨accounts_handle p r hint, ih (handle p r hint).roster⟩

theorem accounted_clearSteps (r : Roster) (sources : List Source) : Accounted r (clearSteps r sources) := by
  induction sources generalizing r with
  | nil => trivial
  | cons s rest ih => exact ⟨accounts_clearStep r s, ih (r.clear s)⟩

/-- **Every step of a run accounts for what it changes,** those of its opening and its end included. -/
theorem accounted_run (p : SourcePolicy) (r : Roster) (feed : Feed) (reason : StopReason) :
    Accounted r (run p r feed reason).steps := by
  have hopening : Accounted r (opening p r) := by
    refine ⟨?_, accounted_clearSteps r p.refused⟩
    apply accounts_idle
    simp
  rw [steps_run]
  cases feed.initial with
  | error cause => exact hopening
  | ok table =>
    apply accounted_append hopening
    rw [rosterAfter_opening]
    apply accounted_append (accounted_steps p _ _)
    rw [rosterAfter_steps]
    refine ⟨?_, trivial⟩
    apply accounts_idle
    simp

theorem rosterAfter_run (p : SourcePolicy) (r : Roster) (feed : Feed) (reason : StopReason) :
    rosterAfter r (run p r feed reason).steps = (run p r feed reason).roster := by
  rw [steps_run, roster_run]
  cases feed.initial with
  | error cause => exact rosterAfter_opening p r
  | ok table =>
    rw [rosterAfter_append, rosterAfter_opening, rosterAfter_append, rosterAfter_steps]
    rfl

/-! ## Between two looks -/

theorem rosterAt_zero (r : Roster) (steps : List Step) : rosterAt r steps 0 = r := by
  rw [rosterAt, List.take_zero]
  rfl

theorem rosterAt_of_length_le (r : Roster) {steps : List Step} {n : Nat} (h : steps.length ≤ n) :
    rosterAt r steps n = rosterAfter r steps := by
  rw [rosterAt, List.take_of_length_le h]

theorem rosterAt_succ {steps : List Step} {n : Nat} {step : Step} (h : steps[n]? = some step) :
    rosterAt r steps (n + 1) = step.roster := by
  rw [rosterAt, List.take_add_one, h, rosterAfter_append]
  rfl

theorem Accounted.accounts {steps : List Step} (h : Accounted r steps) {n : Nat} {step : Step}
    (hn : steps[n]? = some step) : step.Accounts (rosterAt r steps n) := by
  induction steps generalizing r n with
  | nil => simp at hn
  | cons first rest ih =>
    cases n with
    | zero =>
      obtain rfl : first = step := by simpa using hn
      rw [rosterAt_zero]
      exact h.1
    | succ n =>
      rw [rosterAt, List.take_succ_cons, rosterAfter_cons]
      exact ih h.2 (by simpa using hn)

/-- A step without a notice that concerns an address leaves its record as it was. -/
theorem client?_rosterAt_succ {steps : List Step} (h : Accounted r steps) {a : Address} {n : Nat}
    (hn : ∀ step notice, steps[n]? = some step → step.notice = some notice → ¬ notice.Concerns a) :
    (rosterAt r steps (n + 1)).client? a = (rosterAt r steps n).client? a := by
  cases hstep : steps[n]? with
  | none =>
    -- the steps are over, and the roster stays as they left it
    have hlen := List.getElem?_eq_none_iff.mp hstep
    rw [rosterAt_of_length_le r hlen, rosterAt_of_length_le r (by omega)]
  | some step =>
    rw [rosterAt_succ hstep]
    by_contra hne
    obtain ⟨notice, hnotice, hconcerns⟩ := (h.accounts hstep).announced a hne
    exact hn step notice hstep hnotice hconcerns

/-- **Two looks at a record that differ have a notice between them that concerns its address.** -/
theorem exists_concerns_of_client?_ne {steps : List Step} (h : Accounted r steps) {a : Address} {j k : Nat}
    (hjk : j ≤ k) (hne : (rosterAt r steps j).client? a ≠ (rosterAt r steps k).client? a) :
    ∃ n step notice, j ≤ n ∧ n < k ∧ steps[n]? = some step ∧ step.notice = some notice ∧ notice.Concerns a := by
  induction hjk with
  | refl => exact absurd rfl hne
  | @step k hjk ih =>
    by_cases hlast : (rosterAt r steps j).client? a = (rosterAt r steps k).client? a
    · -- the record changes with the last step, and with no step before it
      by_contra hnone
      apply hne
      rw [hlast]
      refine (client?_rosterAt_succ h ?_).symm
      intro step notice hstep hnotice hconcerns
      exact hnone ⟨k, step, notice, hjk, Nat.lt_succ_self k, hstep, hnotice, hconcerns⟩
    · obtain ⟨n, step, notice, hj, hk, hfound⟩ := ih hlast
      exact ⟨n, step, notice, hj, Nat.lt_succ_of_lt hk, hfound⟩

end Intake

end ClientRoster
