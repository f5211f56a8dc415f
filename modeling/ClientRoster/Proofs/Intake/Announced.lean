import ClientRoster.Proofs.Intake.Purge

/-!
# `ClientRoster.Proofs.Intake.Announced` — what a run announces

Whoever listens to an intake learns of every hint, once and in order. What is said of a hint follows from the hint and
the policy; only how many clients went with a source depends on what the roster held. This rests on the rosters that
can come about: one that held a record of an address which stands for none would take hints that are to be rejected.

## Contents
- `lost`: how many clients fewer there are.
- `SourcePolicy.noticeOf`, and **`notice_handle`: the notice about one hint**.
- `notices_steps`, `notices_clearSteps`: the notices about many hints, and about the sources that an opening withdraws.
- **`notices_run`**: all notices of a run, whether the feed delivers its table or not.
-/

namespace ClientRoster

/-- How many clients the second roster has less than the first. -/
def lost (before after : Roster) : Nat := before.size - after.size

/-- The notice about a hint, by the policy and the hint alone. How many clients went is told of a source that ended. -/
def SourcePolicy.noticeOf (p : SourcePolicy) (gone : Nat) : Hint → Notice
  | .sourceDisabled s => .cleared s gone
  | .hosts a s _ =>
    if p.accepts s = false ∨ s = .whois then .ignored s
    else if a.isUnspecified then .rejected a (.unusableAddress a)
    else .applied a (some s)
  | .whois a _ =>
    if p.accepts .whois = false then .ignored .whois
    else if a.isUnspecified then .rejected a (.unusableAddress a)
    else .applied a (some .whois)
  | .unset a s => if p.accepts s = false then .ignored s else .applied a (some s)
  | .remove a => .applied a none

namespace Intake

open Roster

variable {p : SourcePolicy}

/-! ## One hint -/

/-- Of the sources that a policy can accept, the registration data alone come without host names. -/
theorem listsHosts_of_accepts {s : Source} (h : p.accepts s = true) : s.listsHosts = true ↔ s ≠ .whois := by
  cases s with
  | whois => decide
  | persistent => cases h
  | arp | rdns | dhcp | hostsFile => decide

theorem handle_of_refused {hint : Hint} {s : Source} (hs : concern? hint = some s) (h : p.accepts s = false)
    (r : Roster) : handle p r hint = ⟨some (.ignored s), r⟩ := by
  simp [handle, hs, h]

theorem handle_of_accepted {hint : Hint} {s : Source} (hs : concern? hint = some s) (h : p.accepts s = true)
    (r : Roster) : handle p r hint = apply r hint := by
  simp [handle, hs, h]

theorem notice_of_refused {hint : Hint} {s : Source} (hs : concern? hint = some s) (h : p.accepts s = false)
    (r : Roster) (gone : Nat) : (handle p r hint).notice = some (p.noticeOf gone hint) := by
  rw [handle_of_refused hs h]
  refine congrArg some (Eq.symm ?_)
  cases hint with
  | hosts a t names =>
    obtain rfl : t = s := Option.some.inj hs
    exact if_pos (Or.inl h)
  | whois a entry =>
    obtain rfl : .whois = s := Option.some.inj hs
    exact if_pos h
  | unset a t =>
    obtain rfl : t = s := Option.some.inj hs
    exact if_pos h
  | remove a => cases hs
  | sourceDisabled t => cases hs

theorem notice_hosts {r : Roster} (h : r.Named) (a : Address) {s : Source} (hs : p.accepts s = true)
    (names : List String) (gone : Nat) :
    (handle p r (.hosts a s names)).notice = some (p.noticeOf gone (.hosts a s names)) := by
  have hconcern : concern? (.hosts a s names) = some s := rfl
  rw [handle_of_accepted hconcern hs, apply, setHosts_eq h, SourcePolicy.noticeOf]
  by_cases hw : s = .whois
  · subst hw
    rw [if_pos (Or.inr rfl)]
    rfl
  · have hnot : ¬ (p.accepts s = false ∨ s = .whois) := by simp [hs, hw]
    rw [if_pos ((listsHosts_of_accepts hs).mpr hw), if_neg hnot]
    cases a.isUnspecified <;> rfl

theorem notice_whois {r : Roster} (h : r.Named) (a : Address) (entry : Whois) (hs : p.accepts .whois = true)
    (gone : Nat) : (handle p r (.whois a entry)).notice = some (p.noticeOf gone (.whois a entry)) := by
  have hconcern : concern? (.whois a entry) = some .whois := rfl
  have hnot : ¬ p.accepts .whois = false := by simp [hs]
  rw [handle_of_accepted hconcern hs, apply, setWhois_eq h, SourcePolicy.noticeOf, if_neg hnot]
  cases a.isUnspecified <;> rfl

theorem notice_unset (r : Roster) (a : Address) {s : Source} (hs : p.accepts s = true) (gone : Nat) :
    (handle p r (.unset a s)).notice = some (p.noticeOf gone (.unset a s)) := by
  have hconcern : concern? (.unset a s) = some s := rfl
  rw [handle_of_accepted hconcern hs, SourcePolicy.noticeOf, if_neg (by simp [hs])]
  rfl

/-- **Each hint is announced, and what is said follows from the hint and the policy.** -/
theorem notice_handle {r : Roster} (h : r.Named) (hint : Hint) :
    (handle p r hint).notice = some (p.noticeOf (lost r (handle p r hint).roster) hint) := by
  cases hint with
  | hosts a s names =>
    cases hs : p.accepts s with
    | false => exact notice_of_refused rfl hs r _
    | true => exact notice_hosts h a hs names _
  | whois a entry =>
    cases hs : p.accepts .whois with
    | false => exact notice_of_refused rfl hs r _
    | true => exact notice_whois h a entry hs _
  | unset a s =>
    cases hs : p.accepts s with
    | false => exact notice_of_refused rfl hs r _
    | true => exact notice_unset r a hs _
  | remove a => rfl
  | sourceDisabled s => rfl

/-! ## Many hints, and the opening -/

/-- The notice about the hint at a place speaks of the roster that the hints before it left. -/
theorem notices_steps {r : Roster} (h : r.Named) (hints : List Hint) :
    (steps p r hints).filterMap Step.notice = hints.mapIdx fun n hint =>
      p.noticeOf (lost (absorb p r (hints.take n)) (absorb p r (hints.take (n + 1)))) hint := by
  induction hints generalizing r with
  | nil => rfl
  | cons hint rest ih =>
    rw [steps, List.filterMap_cons_some (notice_handle h hint), List.mapIdx_cons, ih (named_handle h p hint)]
    rfl

theorem notices_clearSteps (r : Roster) (sources : List Source) :
    (clearSteps r sources).filterMap Step.notice = sources.mapIdx fun n s =>
      .cleared s (lost (purge r (sources.take n)) (purge r (sources.take (n + 1)))) := by
  induction sources generalizing r with
  | nil => rfl
  | cons s rest ih =>
    have hstep : (clearStep r s).notice = some (.cleared s (lost r (r.clear s))) := rfl
    have hrest : (clearStep r s).roster = r.clear s := rfl
    rw [clearSteps, List.filterMap_cons_some hstep, List.mapIdx_cons, hrest, ih (r.clear s)]
    rfl

/-- The sources that a policy refuses are withdrawn one after the other, and of each it is told how many clients went. -/
def openingNotices (p : SourcePolicy) (r : Roster) : List Notice :=
  .started p.refused :: p.refused.mapIdx fun n s =>
    .cleared s (lost (purge r (p.refused.take n)) (purge r (p.refused.take (n + 1))))

theorem notices_opening (p : SourcePolicy) (r : Roster) :
    (opening p r).filterMap Step.notice = openingNotices p r := by
  have hstep : (⟨some (.started p.refused), r⟩ : Step).notice = some (.started p.refused) := rfl
  rw [opening, List.filterMap_cons_some hstep, notices_clearSteps]
  rfl

/-! ## A whole run -/

/-- The notices about some hints, in order. -/
def hintNotices (p : SourcePolicy) (r : Roster) (hints : List Hint) : List Notice :=
  hints.mapIdx fun n hint =>
    p.noticeOf (lost (absorb p r (hints.take n)) (absorb p r (hints.take (n + 1)))) hint

/-- A withdrawal of a source makes no client. -/
theorem size_clear_le (r : Roster) (s : Source) : (r.clear s).size ≤ r.size := by
  have hfilter := List.length_filter_le (fun c : Client => !c.isVacant) (r.clients.map (·.unset s))
  rw [List.length_map] at hfilter
  exact hfilter

/-- A step that is announced is not silent. -/
theorem notice_ne_none_of_mem_steps {r : Roster} (h : r.Named) {hints : List Hint} :
    ∀ step ∈ steps p r hints, step.notice ≠ none := by
  induction hints generalizing r with
  | nil => simp [steps]
  | cons hint rest ih =>
    rw [steps, List.forall_mem_cons]
    refine ⟨?_, ih (named_handle h p hint)⟩
    rw [notice_handle h hint]
    exact Option.some_ne_none _

theorem notice_ne_none_of_mem_clearSteps {r : Roster} {sources : List Source} :
    ∀ step ∈ clearSteps r sources, step.notice ≠ none := by
  induction sources generalizing r with
  | nil => simp [clearSteps]
  | cons s rest ih =>
    rw [clearSteps, List.forall_mem_cons]
    exact ⟨Option.some_ne_none _, ih⟩

theorem notice_ne_none_of_mem_run {r : Roster} (hr : r.Reachable) (feed : Feed) (reason : StopReason) :
    ∀ step ∈ (run p r feed reason).steps, step.notice ≠ none := by
  have hopening : ∀ step ∈ opening p r, step.notice ≠ none := by
    rw [opening, List.forall_mem_cons]
    exact ⟨Option.some_ne_none _, notice_ne_none_of_mem_clearSteps⟩
  rw [steps_run]
  cases feed.initial with
  | error cause => exact hopening
  | ok table =>
    intro step hmem
    rcases List.mem_append.mp hmem with hmem | hmem
    · exact hopening step hmem
    rcases List.mem_append.mp hmem with hmem | hmem
    · exact notice_ne_none_of_mem_steps (hr.purge p.refused).named step hmem
    · obtain rfl := List.mem_singleton.mp hmem
      exact Option.some_ne_none _

/-- **The notices of a run.** From any reachable roster, a run whose feed delivers its table announces its start with
the refused sources, the withdrawal of each of them, then each hint of the table and of the stream by one notice that
the policy and the hint decide, and its end; and it does not fail. A run whose feed does not deliver its table announces
no more than the withdrawals, and fails with the cause. No step of either is silent, and the clients that went with a
source are as many as the roster has less. -/
theorem notices_run (p : SourcePolicy) {r : Roster} (hr : r.Reachable) (feed : Feed) (reason : StopReason) :
    (∀ table, feed.initial = .ok table →
      (run p r feed reason).notices =
        openingNotices p r ++ hintNotices p (purge r p.refused) (table ++ feed.stream) ++ [.stopped reason] ∧
      (run p r feed reason).failure = none) ∧
    (∀ cause, feed.initial = .error cause →
      (run p r feed reason).notices = openingNotices p r ∧
      (run p r feed reason).failure = some (.feed (feed.name ++ ": " ++ cause.message))) ∧
    (∀ step ∈ (run p r feed reason).steps, step.notice ≠ none) ∧
    (∀ (t : Roster) s, (t.clear s).size + lost t (t.clear s) = t.size) := by
  have hnotices : (run p r feed reason).notices = (run p r feed reason).steps.filterMap Step.notice := rfl
  refine ⟨?_, ?_, notice_ne_none_of_mem_run hr feed reason, ?_⟩
  · intro table htable
    have hnamed := (hr.purge p.refused).named
    constructor
    · rw [hnotices, steps_run, htable]
      simp only [List.filterMap_append, notices_opening, notices_steps hnamed]
      rw [List.append_assoc]
      rfl
    · rw [run, htable]
  · intro cause hcause
    constructor
    · rw [hnotices, steps_run, hcause]
      exact notices_opening p r
    · rw [run, hcause]
      rfl
  · intro t s
    exact Nat.add_sub_of_le (size_clear_le t s)

/-- Hints that are applied, ignored and rejected, in turns. -/
def variedFeed (a b : Address) : Feed where
  name := "varied"
  initial := .ok [.hosts a .dhcp ["tablet"], .hosts a .whois ["tablet"], .hosts (.v4 ⟨0, 0, 0, 0⟩) .dhcp ["ghost"]]
  stream := [.whois a {}, .hosts b .dhcp [""], .unset b .arp, .sourceDisabled .dhcp, .remove a, .unset a .persistent]

theorem notices_run_varied :
    let a : Address := .v4 ⟨192, 0, 2, 10⟩
    let b : Address := .v4 ⟨192, 0, 2, 11⟩
    let nobody : Address := .v4 ⟨0, 0, 0, 0⟩
    let p : SourcePolicy := { arp := false }
    (sampleRoster a b).Reachable ∧
      (run p (sampleRoster a b) (variedFeed a b) .feedEnded).notices =
        [.started [.arp], .cleared .arp 2, .applied a (some .dhcp), .ignored .whois,
          .rejected nobody (.unusableAddress nobody), .applied a (some .whois), .applied b (some .dhcp),
          .ignored .arp, .cleared .dhcp 1, .applied a none, .ignored .persistent, .stopped .feedEnded] ∧
      (run p (sampleRoster a b) (variedFeed a b) .feedEnded).failure = none := by
  intro a b nobody p
  have hr := reachable_sampleRoster a b
  obtain ⟨htable, -⟩ := notices_run p hr (variedFeed a b) .feedEnded
  obtain ⟨hnotices, hfailure⟩ := htable _ rfl
  refine ⟨hr, ?_, hfailure⟩
  rw [hnotices]
  decide

end Intake

end ClientRoster
