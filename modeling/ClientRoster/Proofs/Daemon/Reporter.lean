import ClientRoster.Daemon.Report
import ClientRoster.Proofs.Intake.Accounted

/-!
# `ClientRoster.Proofs.Daemon.Reporter` — a late look is as good as an early one

A reporter hears of hints that were applied and then looks by what name their clients go. By then the intake may have
gone on, so what a single report says depends on how late it is. What the last report on a client says does not: from
the hint on that it is about, nothing has changed for that client, unless it was removed or a source was cleared.

## Contents
- `Notice.told?`, `tellings`, `lastTold?`: what a reporter says, when it may look at any time after it was told to.
- `notices_eq_of_steps`: a run makes one notice with each step.
- `client?_rosterAt_of_not_concerns`: the record of a client after the last notice that concerns it.
- **`announced_run`**: every change is announced, and what the last report on a client says.
-/

namespace ClientRoster

/-- What a reporter says of a notice: by what name the client of an applied hint goes in the roster that it looks at.
The end of a client is no reason to look. -/
def Notice.told? (r : Roster) : Notice → Option (Address × Option (Source × String))
  | applied a (some _) => some (a, r.resolve? a)
  | _ => none

/-- What a reporter says of some notices, which it hears in order. About the notice at place `n` it looks at the roster
as it is after `look n` steps. -/
def tellings (rosters : Nat → Roster) (look : Nat → Nat) (heard : List Notice) :
    List (Address × Option (Source × String)) :=
  (heard.mapIdx fun n notice => notice.told? (rosters (look n))).filterMap id

/-- What was said last of an address. -/
def lastTold? (a : Address) (told : List (Address × Option (Source × String))) : Option (Option (Source × String)) :=
  (told.filter fun t => decide (t.1 = a)).getLast?.map Prod.snd

theorem lastTold?_split {a : Address} {name : Option (Source × String)}
    {front back : List (Address × Option (Source × String))} (h : ∀ t ∈ back, t.1 ≠ a) :
    lastTold? a (front ++ (a, name) :: back) = some name := by
  have hback : (back.filter fun t => decide (t.1 = a)) = [] := by
    rw [List.filter_eq_nil_iff]
    intro t ht
    simpa using h t ht
  unfold lastTold?
  rw [List.filter_append, List.filter_cons_of_pos (by simp), hback, List.getLast?_concat]
  rfl

theorem told?_addr {r : Roster} {notice : Notice} {t : Address × Option (Source × String)}
    (h : notice.told? r = some t) : notice.Concerns t.1 := by
  cases notice with
  | applied a s =>
    cases s with
    | none => simp [Notice.told?] at h
    | some s =>
      obtain rfl : (a, r.resolve? a) = t := by simpa [Notice.told?] using h
      exact Or.inl ⟨some s, rfl⟩
  | _ => simp [Notice.told?] at h

/-- Of an address that no later notice concerns, a reporter says last what it says of this one. -/
theorem lastTold?_tellings (rosters : Nat → Roster) (look : Nat → Nat) {a : Address} {s : Source}
    {front back : List Notice} (hback : ∀ notice ∈ back, ¬ notice.Concerns a) :
    lastTold? a (tellings rosters look (front ++ .applied a (some s) :: back)) =
      some ((rosters (look front.length)).resolve? a) := by
  have hsplit : tellings rosters look (front ++ .applied a (some s) :: back) =
      tellings rosters look front ++
        (a, (rosters (look front.length)).resolve? a) ::
          (back.mapIdx fun n notice => notice.told? (rosters (look (n + 1 + front.length)))).filterMap id := by
    unfold tellings
    rw [List.mapIdx_append, List.filterMap_append, List.mapIdx_cons, Nat.zero_add]
    rfl
  rw [hsplit]
  apply lastTold?_split
  intro t ht hta
  obtain ⟨said, hsaid, hsome⟩ := List.mem_filterMap.mp ht
  obtain ⟨n, hn, rfl⟩ := List.mem_mapIdx.mp hsaid
  exact hback _ (List.getElem_mem hn) (hta ▸ told?_addr hsome)

namespace Intake

open Roster

variable {p : SourcePolicy} {r : Roster}

/-! ## Steps and notices -/

/-- Steps that are all announced are as many as their notices, in the same order. -/
theorem map_notice_eq {steps : List Step} (h : ∀ step ∈ steps, step.notice ≠ none) :
    steps.map Step.notice = (steps.filterMap Step.notice).map some := by
  induction steps with
  | nil => rfl
  | cons step rest ih =>
    obtain ⟨hstep, hrest⟩ := List.forall_mem_cons.mp h
    obtain ⟨notice, hnotice⟩ := Option.ne_none_iff_exists'.mp hstep
    rw [List.map_cons, List.filterMap_cons_some hnotice, List.map_cons, ih hrest, hnotice]

/-- A run makes one notice with each step. -/
theorem getElem?_notices_run (hr : r.Reachable) {feed : Feed} {reason : StopReason} {n : Nat} {step : Step}
    {notice : Notice} (hstep : (run p r feed reason).steps[n]? = some step) (hnotice : step.notice = some notice) :
    (run p r feed reason).notices[n]? = some notice := by
  have hmap := map_notice_eq (notice_ne_none_of_mem_run (p := p) hr feed reason)
  have hn := congrArg (·[n]?) hmap
  simp only [List.getElem?_map, hstep, Option.map_some, hnotice] at hn
  obtain ⟨found, hfound, hsome⟩ := Option.map_eq_some_iff.mp hn.symm
  obtain rfl : found = notice := Option.some.inj hsome
  exact hfound

/-- **The record of a client stays as it is after the last notice that concerns it.** -/
theorem client?_rosterAt_of_not_concerns (hr : r.Reachable) {feed : Feed} {reason : StopReason} {a : Address}
    {front back : List Notice} (hsplit : (run p r feed reason).notices = front ++ back)
    (hback : ∀ notice ∈ back, ¬ notice.Concerns a) {n : Nat} (hn : front.length ≤ n) :
    (rosterAt r (run p r feed reason).steps n).client? a = (run p r feed reason).roster.client? a := by
  rw [← rosterAfter_run]
  by_cases hlen : (run p r feed reason).steps.length ≤ n
  · rw [rosterAt_of_length_le r hlen]
  · rw [← rosterAt_of_length_le r (Nat.le_refl _)]
    by_contra hne
    obtain ⟨m, step, notice, hm, -, hstep, hnotice, hconcerns⟩ :=
      exists_concerns_of_client?_ne (accounted_run p r feed reason) (by omega) hne
    -- the notice that would have to be there is one of those that do not concern the address
    have hfound := getElem?_notices_run hr hstep hnotice
    rw [hsplit, List.getElem?_append_right (by omega)] at hfound
    exact hback notice (List.mem_of_getElem? hfound) hconcerns

/-! ## A whole run -/

/-- **Every change is announced.** Under any policy and from any reachable roster, the notice about a hint says what
the hint changes: a record changes only with a notice that the hint was applied to its address, or that a source was
cleared; an applied hint changes no other record, an ignored or rejected one nothing at all, and a source that is
cleared loses one slot on every client that stays, while so many clients go as the notice says. Over a run, two looks
at a record that differ have such a notice between them. So what a reporter says last of a client, who hears all
notices and looks any time after a hint was applied, is the name by which the client goes at the end, unless it was
removed or a source was cleared after that hint; the log of the daemon reads then as if it was written at the end. -/
theorem announced_run (p : SourcePolicy) {r : Roster} (hr : r.Reachable) :
    (∀ hint, (∃ notice, (handle p r hint).notice = some notice) ∧ (handle p r hint).Accounts r) ∧
      ∀ (feed : Feed) (reason : StopReason), let run := run p r feed reason
        (∀ a j k, j ≤ k → (rosterAt r run.steps j).client? a ≠ (rosterAt r run.steps k).client? a →
          ∃ n notice, j ≤ n ∧ n < k ∧ run.notices[n]? = some notice ∧ notice.Concerns a) ∧
        ∀ look : Nat → Nat, (∀ n, n < look n) →
          ∀ a s front back, run.notices = front ++ .applied a (some s) :: back →
            (∀ notice ∈ back, ¬ notice.Concerns a) →
            lastTold? a (tellings (rosterAt r run.steps) look run.notices) = some (run.roster.resolve? a) ∧
            Daemon.report (rosterAt r run.steps (look front.length)) (.applied a (some s)) =
              Daemon.report run.roster (.applied a (some s)) := by
  constructor
  · intro hint
    exact ⟨⟨_, notice_handle hr.named hint⟩, accounts_handle p r hint⟩
  · intro feed reason run
    constructor
    · intro a j k hjk hne
      obtain ⟨n, step, notice, hj, hk, hstep, hnotice, hconcerns⟩ :=
        exists_concerns_of_client?_ne (accounted_run p r feed reason) hjk hne
      exact ⟨n, notice, hj, hk, getElem?_notices_run hr hstep hnotice, hconcerns⟩
    · intro look hlook a s front back hsplit hback
      have hsplit' : run.notices = (front ++ [.applied a (some s)]) ++ back := by
        rw [hsplit, List.append_assoc]
        rfl
      have hlen : (front ++ [Notice.applied a (some s)]).length ≤ look front.length := by
        rw [List.length_append]
        exact hlook front.length
      have hname : (rosterAt r run.steps (look front.length)).resolve? a = run.roster.resolve? a :=
        congrArg (·.bind Client.resolve?) (client?_rosterAt_of_not_concerns hr hsplit' hback hlen)
      constructor
      · rw [hsplit, lastTold?_tellings _ look hback, hname]
      · simp only [Daemon.report, Daemon.resolutionText, hname]

/-- Two clients that more than one source names, and one of them is removed in the end. -/
def lateFeed (a b : Address) : Feed where
  name := "late"
  initial := .ok [.hosts a .dhcp ["tablet"], .hosts b .dhcp ["printer"]]
  stream := [.unset a .persistent, .hosts a .rdns ["watch"], .hosts b .hostsFile ["printer"], .unset b .arp, .remove b]

theorem announced_run_late_look :
    let a : Address := .v4 ⟨192, 0, 2, 10⟩
    let b : Address := .v4 ⟨192, 0, 2, 11⟩
    let run := run { arp := false } (sampleRoster a b) (lateFeed a b) .feedEnded
    (sampleRoster a b).Reachable ∧
      (rosterAt (sampleRoster a b) run.steps 6).client? b ≠ (rosterAt (sampleRoster a b) run.steps 9).client? b ∧
      (∃ n notice, 6 ≤ n ∧ n < 9 ∧ run.notices[n]? = some notice ∧ notice.Concerns b) ∧
      (∀ n, n < n + 3) ∧
      lastTold? a (tellings (rosterAt (sampleRoster a b) run.steps) (· + 3) run.notices) =
        some (some (.dhcp, "tablet")) := by
  intro a b run
  have hr := reachable_sampleRoster a b
  obtain ⟨hbetween, hlast⟩ := (announced_run { arp := false } hr).2 (lateFeed a b) .feedEnded
  have hne : (rosterAt (sampleRoster a b) run.steps 6).client? b ≠
      (rosterAt (sampleRoster a b) run.steps 9).client? b := by decide
  have hlook : ∀ n, n < n + 3 := by
    intro n
    omega
  -- the last notice about the first client, and what comes after it
  have hsplit : run.notices =
      [.started [.arp], .cleared .arp 2, .applied a (some .dhcp), .applied b (some .dhcp), .ignored .persistent] ++
        .applied a (some .rdns) ::
          [.applied b (some .hostsFile), .ignored .arp, .applied b none, .stopped .feedEnded] := by decide
  have hback : ∀ notice ∈ [Notice.applied b (some .hostsFile), .ignored .arp, .applied b none, .stopped .feedEnded],
      ¬ notice.Concerns a := by
    simp [Notice.Concerns, a, b]
  have hname : run.roster.resolve? a = some (.dhcp, "tablet") := by decide
  refine ⟨hr, hne, hbetween b 6 9 (by decide) hne, hlook, ?_⟩
  rw [← hname]
  exact (hlast (· + 3) hlook a .rdns _ _ hsplit hback).1

end Intake

end ClientRoster
