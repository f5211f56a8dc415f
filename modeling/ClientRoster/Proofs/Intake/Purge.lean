import ClientRoster.Proofs.Intake.Hints

/-!
# `ClientRoster.Proofs.Intake.Purge` — refused on arrival, or withdrawn at the end

An intake drops the hints of refused sources. It might as well accept everything and withdraw the refused sources
when it is done: the roster would be the same. On the way the two differ, since a record that only refused sources
know exists in one run and not in the other. So the two runs are compared by their cells (`Masks`).

## Contents
- `Change.leaves?_of_admits`, `Change.leaves?_of_dropped`: where a hint can write.
- `Masks`, kept by each hint (`masks_handle`) and so by all (`masks_absorb`).
- `Clean`: no cell of a refused source is occupied; kept by each hint.
- **`client?_run_eq_purge`**: both runs leave the same records, and after the opening of a run there is never
  anything of a refused source.
-/

namespace ClientRoster.Intake

open Roster

/-- The policy that accepts every source that can be accepted. -/
def acceptAll : SourcePolicy := {}

theorem accepts_acceptAll {s : Source} : acceptAll.accepts s = true ↔ s ≠ .persistent := by
  cases s <;> decide

theorem refused_acceptAll : acceptAll.refused = [] := by
  decide

variable {p : SourcePolicy}

theorem eq_acceptAll (h : p.refused = []) : p = acceptAll := by
  have all : ∀ s, s ≠ .persistent → p.accepts s = true := by
    intro s hs
    cases ha : p.accepts s with
    | true => rfl
    | false =>
      have hmem := SourcePolicy.mem_refused.mpr ⟨hs, ha⟩
      simp [h] at hmem
  obtain ⟨whois, arp, rdns, dhcp, hosts⟩ := p
  obtain rfl : whois = true := all .whois (by decide)
  obtain rfl : arp = true := all .arp (by decide)
  obtain rfl : rdns = true := all .rdns (by decide)
  obtain rfl : dhcp = true := all .dhcp (by decide)
  obtain rfl : hosts = true := all .hostsFile (by decide)
  rfl

theorem accepts_acceptAll_of_accepts {s : Source} (h : p.accepts s = true) : acceptAll.accepts s = true := by
  rw [accepts_acceptAll]
  rintro rfl
  cases h

theorem admits_acceptAll {hint : Hint} (h : p.admits hint = true) : acceptAll.admits hint = true := by
  unfold SourcePolicy.admits at h ⊢
  cases hc : concern? hint with
  | none => rfl
  | some s =>
    rw [hc] at h
    exact accepts_acceptAll_of_accepts h

/-! ## Where a hint can write -/

theorem ne_of_accepts {s t : Source} (hs : p.accepts s = true) (ht : p.accepts t = false) : s ≠ t := by
  rintro rfl
  rw [hs] at ht
  cases ht

/-- An admitted hint puts nothing into a cell of a source that is not accepted; it may only empty it. -/
theorem leaves?_of_admits {hint : Hint} (h : p.admits hint = true) {s : Source} (hs : p.accepts s = false)
    (a : Address) : (hint.change.leaves? a s).join = none := by
  have other {t : Source} (ht : p.accepts t = true) : s ≠ t := (ne_of_accepts ht hs).symm
  cases hint with
  | hosts b t names => simp [Hint.change, Change.leaves?, other (t := t) h]
  | whois b entry => simp [Hint.change, Change.leaves?, other (t := .whois) h]
  | unset b t => simp [Hint.change, Change.leaves?, other (t := t) h]
  | remove b =>
    simp only [Hint.change, Change.leaves?]
    split <;> rfl
  | sourceDisabled t =>
    -- the end of any source is admitted, and it only empties cells
    simp only [Hint.change, Change.leaves?]
    split <;> rfl

/-- A hint that is dropped would only have written cells of sources that are not accepted. -/
theorem leaves?_of_dropped {hint : Hint} (h : p.admits hint = false) {s : Source} (hs : p.accepts s = true)
    (a : Address) : hint.change.leaves? a s = none := by
  have other {t : Source} (ht : p.accepts t = false) : s ≠ t := ne_of_accepts hs ht
  cases hint with
  | hosts b t names => simp [Hint.change, Change.leaves?, other (t := t) h]
  | whois b entry => simp [Hint.change, Change.leaves?, other (t := .whois) h]
  | unset b t => simp [Hint.change, Change.leaves?, other (t := t) h]
  | remove b => cases h
  | sourceDisabled t => cases h

/-! ## Nothing of a refused source -/

/-- No cell of a source that is not accepted is occupied. -/
def Clean (p : SourcePolicy) (r : Roster) : Prop := ∀ a s, p.accepts s = false → r.cell? a s = none

theorem clean_handle {r : Roster} (hn : r.Named) (h : Clean p r) (hint : Hint) :
    Clean p (handle p r hint).roster := by
  intro a s hs
  rw [roster_handle]
  by_cases ha : p.admits hint = true
  · rw [if_pos ha, cell?_perform hn, h a s hs]
    have hl := leaves?_of_admits ha hs a
    split
    · cases hw : hint.change.leaves? a s with
      | none => rfl
      | some left => simpa [hw] using hl
    · rfl
  · rw [if_neg ha]
    exact h a s hs

theorem cell?_purge (r : Roster) (sources : List Source) (a : Address) (s : Source) :
    (purge r sources).cell? a s = if s ∈ sources then none else r.cell? a s := by
  induction sources generalizing r with
  | nil => simp [purge]
  | cons t rest ih =>
    have hstep : purge r (t :: rest) = purge (r.clear t) rest := rfl
    rw [hstep, ih, cell?_clear]
    by_cases ht : s = t <;> simp [ht]

theorem clean_purge (p : SourcePolicy) (r : Roster) : Clean p (purge r p.refused) := by
  intro a s hs
  rw [cell?_purge]
  by_cases hp : s = .persistent
  · rw [hp, cell?_persistent, ite_self]
  · rw [if_pos (SourcePolicy.mem_refused.mpr ⟨hp, hs⟩)]

/-! ## Two runs side by side -/

/-- The first roster holds the accepted half of the second. -/
structure Masks (p : SourcePolicy) (r t : Roster) : Prop where
  named_left : r.Named
  named_right : t.Named
  occupied_left : r.Occupied
  clean : Clean p r
  agree : ∀ a s, p.accepts s = true → r.cell? a s = t.cell? a s

/-- A hint that the policy drops changes no accepted cell of the roster that drops nothing. -/
theorem cell?_handle_of_dropped {t : Roster} (hn : t.Named) {hint : Hint} (ha : p.admits hint = false)
    {s : Source} (hs : p.accepts s = true) (a : Address) :
    (handle acceptAll t hint).roster.cell? a s = t.cell? a s := by
  rw [roster_handle]
  by_cases hall : acceptAll.admits hint = true
  · rw [if_pos hall, cell?_perform hn, leaves?_of_dropped ha hs]
    simp
  · rw [if_neg hall]

theorem occupied_handle {r : Roster} (hn : r.Named) (h : r.Occupied) (p : SourcePolicy) (hint : Hint) :
    (handle p r hint).roster.Occupied := by
  rw [roster_handle]
  split
  · refine occupied_perform hn h ?_
    cases hint <;> trivial
  · exact h

/-- **Each hint keeps the two rosters side by side,** whether the policy admits it or not. -/
theorem masks_handle {r t : Roster} (h : Masks p r t) (hint : Hint) :
    Masks p (handle p r hint).roster (handle acceptAll t hint).roster where
  named_left := named_handle h.named_left p hint
  named_right := named_handle h.named_right acceptAll hint
  occupied_left := occupied_handle h.named_left h.occupied_left p hint
  clean := clean_handle h.named_left h.clean hint
  agree := by
    intro a s hs
    cases ha : p.admits hint with
    | true =>
      rw [roster_handle, roster_handle, if_pos ha, if_pos (admits_acceptAll ha), cell?_perform h.named_left,
        cell?_perform h.named_right, h.agree a s hs]
    | false =>
      -- the second roster may take the hint, but in no cell that is accepted
      rw [cell?_handle_of_dropped h.named_right ha hs, roster_handle, if_neg (by simp [ha])]
      exact h.agree a s hs

theorem masks_absorb {r t : Roster} (h : Masks p r t) (hints : List Hint) :
    Masks p (absorb p r hints) (absorb acceptAll t hints) := by
  induction hints generalizing r t with
  | nil => exact h
  | cons hint rest ih => exact ih (masks_handle h hint)

/-- A purge of at least one source leaves no vacant record. -/
theorem occupied_purge (r : Roster) {sources : List Source} (h : sources ≠ []) :
    (purge r sources).Occupied := by
  -- each withdrawal drops the vacant records, so the last one leaves none
  induction sources generalizing r with
  | nil => exact absurd rfl h
  | cons s rest ih =>
    cases rest with
    | nil => exact occupied_clear r s
    | cons t more => exact ih (r.clear s) (by simp)

theorem masks_purge {r : Roster} (h : r.Reachable) (hp : p.refused ≠ []) : Masks p (purge r p.refused) r where
  named_left := (h.purge p.refused).named
  named_right := h.named
  occupied_left := occupied_purge r hp
  clean := clean_purge p r
  agree := by
    intro a s hs
    rw [cell?_purge, if_neg]
    rw [SourcePolicy.mem_refused, hs]
    simp

/-- **The first roster is what a purge makes of the second.** -/
theorem Masks.client?_eq {r t : Roster} (h : Masks p r t) {order : List Source} (ho : order.Perm p.refused)
    (hp : p.refused ≠ []) (a : Address) : r.client? a = (purge t order).client? a := by
  have hne : order ≠ [] := by
    rintro rfl
    exact hp ho.nil_eq.symm
  refine client?_eq_of_cells h.occupied_left (occupied_purge t hne) ?_ a
  intro b s
  rw [cell?_purge]
  have hmem : s ∈ order ↔ s ≠ .persistent ∧ p.accepts s = false := ho.mem_iff.trans SourcePolicy.mem_refused
  cases hs : p.accepts s with
  | true => rw [if_neg (by simp [hmem, hs]), h.agree b s hs]
  | false =>
    rw [h.clean b s hs]
    by_cases hpers : s = .persistent
    · rw [hpers, cell?_persistent, ite_self]
    · rw [if_pos (hmem.mpr ⟨hpers, hs⟩)]

/-! ## The steps of a run -/

theorem clean_of_mem_steps {r : Roster} (hn : r.Named) (h : Clean p r) (hints : List Hint) :
    ∀ step ∈ steps p r hints, Clean p step.roster := by
  induction hints generalizing r with
  | nil => simp [steps]
  | cons hint rest ih =>
    have hnext := clean_handle hn h hint
    simp only [steps, List.forall_mem_cons]
    exact ⟨hnext, ih (named_handle hn p hint) hnext⟩

theorem clean_absorb {r : Roster} (hn : r.Named) (h : Clean p r) (hints : List Hint) :
    Clean p (absorb p r hints) := by
  induction hints generalizing r with
  | nil => exact h
  | cons hint rest ih => exact ih (named_handle hn p hint) (clean_handle hn h hint)

theorem roster_of_clearSteps {r : Roster} {sources : List Source} {n : Nat} {step : Step}
    (h : (clearSteps r sources)[n]? = some step) : step.roster = purge r (sources.take (n + 1)) := by
  induction sources generalizing r n with
  | nil => simp [clearSteps] at h
  | cons s rest ih =>
    cases n with
    | zero =>
      obtain rfl : clearStep r s = step := by simpa [clearSteps] using h
      rfl
    | succ n =>
      have hrest : (clearSteps (r.clear s) rest)[n]? = some step := h
      exact ih hrest

/-- The opening withdraws one more refused source with each step after the first. -/
theorem roster_of_opening {r : Roster} {n : Nat} {step : Step} (h : (opening p r)[n]? = some step) :
    step.roster = purge r (p.refused.take n) := by
  cases n with
  | zero =>
    obtain rfl : (⟨some (.started p.refused), r⟩ : Step) = step := by simpa [opening] using h
    rfl
  | succ n => exact roster_of_clearSteps (by simpa [opening] using h)

/-- Behind the opening, a run is at no step anything but clean. -/
theorem steps_run_eq (p : SourcePolicy) {r : Roster} (hr : r.Reachable) (feed : Feed) (reason : StopReason) :
    ∃ rest, (run p r feed reason).steps = opening p r ++ rest ∧ ∀ step ∈ rest, Clean p step.roster := by
  rw [steps_run]
  cases feed.initial with
  | error cause => exact ⟨[], by simp, by simp⟩
  | ok table =>
    have hpurged := clean_purge p r
    have hnamed := (hr.purge p.refused).named
    refine ⟨_, rfl, ?_⟩
    intro step hmem
    rcases List.mem_append.mp hmem with hmem | hmem
    · exact clean_of_mem_steps hnamed hpurged _ step hmem
    · obtain rfl := List.mem_singleton.mp hmem
      exact clean_absorb hnamed hpurged _

theorem clean_of_step {r : Roster} (hr : r.Reachable) {feed : Feed} {reason : StopReason} {n : Nat} {step : Step}
    (hn : p.refused.length ≤ n) (h : (run p r feed reason).steps[n]? = some step) : Clean p step.roster := by
  obtain ⟨rest, hsteps, hclean⟩ := steps_run_eq p hr feed reason
  rw [hsteps, List.getElem?_append] at h
  split at h
  · rw [roster_of_opening h, List.take_of_length_le hn]
    exact clean_purge p r
  · exact hclean step (List.mem_of_getElem? h)

/-- **Refusing on arrival is accepting everything and withdrawing at the end.** From any reachable roster, a run under
a policy leaves the same record of each address as a run that accepts every source, followed by the withdrawal of the
refused ones in any order; and from the step on that withdraws the last of them in the opening, no client ever holds
anything of a refused source. -/
theorem client?_run_eq_purge (p : SourcePolicy) {r : Roster} (hr : r.Reachable) (feed : Feed) (reason : StopReason)
    {order : List Source} (ho : order.Perm p.refused) :
    (∀ a, (run p r feed reason).roster.client? a =
      (purge (run acceptAll r feed reason).roster order).client? a) ∧
    ∀ n step, p.refused.length ≤ n → (run p r feed reason).steps[n]? = some step →
      ∀ a c, step.roster.client? a = some c → ∀ s ∈ p.refused, c.slot? s = none := by
  refine ⟨fun a => ?_, ?_⟩
  · rw [roster_run, roster_run, refused_acceptAll]
    by_cases hp : p.refused = []
    · -- nothing is refused, so the two runs are the same
      obtain rfl := eq_acceptAll hp
      obtain rfl : order = [] := (hp ▸ ho).eq_nil
      rw [hp]
      rfl
    · have hmasks := masks_purge hr hp
      cases feed.initial with
      | error cause => exact hmasks.client?_eq ho hp a
      | ok table => exact (masks_absorb hmasks _).client?_eq ho hp a
  · intro n step hn hstep a c hc s hs
    have hclean := clean_of_step hr hn hstep a s (SourcePolicy.mem_refused.mp hs).2
    rwa [cell?, hc] at hclean

/-- Two clients; the second has a record with nothing in it. -/
def sampleRoster (a b : Address) : Roster :=
  ((empty.perform (.setHosts a .arp ["camera"])).perform (.setHosts b .dhcp ["phone"])).modify b
    (·.edit (.unset .dhcp))

theorem reachable_sampleRoster (a b : Address) : (sampleRoster a b).Reachable := by
  have hone : (empty.perform (.setHosts a .arp ["camera"])).Reachable := .change .empty trivial
  have htwo : ((empty.perform (.setHosts a .arp ["camera"])).perform (.setHosts b .dhcp ["phone"])).Reachable :=
    .change hone trivial
  exact .edit htwo b (.unset .dhcp)

/-- Hints of refused and of accepted sources, in turns. -/
def sampleFeed (a b : Address) : Feed where
  name := "sample"
  initial := .ok [.hosts a .arp ["tablet"], .whois b {}, .hosts b .rdns ["phone"]]
  stream := [.unset b .rdns, .hosts a .dhcp ["tablet"], .sourceDisabled .dhcp, .hosts a .rdns [""]]

theorem client?_run_eq_purge_two_refused :
    let a : Address := .v4 ⟨192, 0, 2, 10⟩
    let b : Address := .v4 ⟨192, 0, 2, 11⟩
    let p : SourcePolicy := { arp := false, whois := false }
    (sampleRoster a b).Reachable ∧ [Source.whois, .arp].Perm p.refused ∧
      (run acceptAll (sampleRoster a b) (sampleFeed a b) .feedEnded).roster.client? b =
        some ((Client.vacant b).setWhois {}) ∧
      (run p (sampleRoster a b) (sampleFeed a b) .feedEnded).roster.client? b = none ∧
      (purge (run acceptAll (sampleRoster a b) (sampleFeed a b) .feedEnded).roster [.whois, .arp]).client? b =
        none := by
  intro a b p
  have hr := reachable_sampleRoster a b
  have ho : [Source.whois, .arp].Perm p.refused := by decide
  have hboth := (client?_run_eq_purge p hr (sampleFeed a b) .feedEnded ho).1 b
  have hrun : (run p (sampleRoster a b) (sampleFeed a b) .feedEnded).roster.client? b = none := by decide
  exact ⟨hr, ho, by decide, hrun, hboth.symm.trans hrun⟩

end ClientRoster.Intake
