import ClientRoster.Proofs.Intake.Hints
import ClientRoster.Proofs.Roster.Shelf
import ClientRoster.Proofs.Roster.Visit

/-!
# `ClientRoster.Proofs.Roster.WellKept` — rosters are well kept

Whatever is done with rosters, by callers or by an intake, each record lies under its own address, none lies under an
address that stands for none, and no slot holds a single empty name. So the size of a roster is the number of its
addresses, and who goes through the records meets each one once, in whatever order they come.

## Contents
- `Roster.Leads`, `leads_run`: an intake goes on with the changes that its hints ask for.
- `Roster.WellKept`, `wellKept_of_kept`: what follows for a roster whose records are in order.
- **`wellKept_history`**: all rosters that can come about, and all that an intake makes of them.
-/

namespace ClientRoster

/-! ## Intakes -/

/-- No hint asks for a record to be stored as it is. -/
theorem Hint.change_ne_add (hint : Hint) (c : Client) : hint.change ≠ .add c := by
  cases hint <;> exact nofun

namespace Roster

/-- Changes that store no record as it is make the second roster of the first. -/
def Leads (r t : Roster) : Prop := ∃ changes : List Change, (∀ c, .add c ∉ changes) ∧ t = r.performAll changes

theorem Leads.refl (r : Roster) : r.Leads r := ⟨[], by simp, rfl⟩

theorem Leads.trans {r s t : Roster} (h : r.Leads s) (h' : s.Leads t) : r.Leads t := by
  obtain ⟨front, hfront, rfl⟩ := h
  obtain ⟨back, hback, rfl⟩ := h'
  refine ⟨front ++ back, ?_, List.foldl_append.symm⟩
  intro c hc
  rcases List.mem_append.mp hc with hc | hc
  · exact hfront c hc
  · exact hback c hc

theorem leads_perform (r : Roster) (change : Change) (h : ∀ c, change ≠ .add c) : r.Leads (r.perform change) := by
  refine ⟨[change], ?_, rfl⟩
  intro c hc
  exact h c (List.mem_singleton.mp hc).symm

theorem leads_handle (p : SourcePolicy) (r : Roster) (hint : Hint) : r.Leads (Intake.handle p r hint).roster := by
  rw [Intake.roster_handle]
  split
  · exact leads_perform r hint.change hint.change_ne_add
  · exact Leads.refl r

theorem leads_steps (p : SourcePolicy) (r : Roster) (hints : List Hint) :
    ∀ step ∈ Intake.steps p r hints, r.Leads step.roster := by
  induction hints generalizing r with
  | nil => exact nofun
  | cons hint rest ih =>
    have hfirst := leads_handle p r hint
    rw [Intake.steps, List.forall_mem_cons]
    exact ⟨hfirst, fun step hstep => hfirst.trans (ih _ step hstep)⟩

theorem leads_clearSteps (r : Roster) (sources : List Source) :
    ∀ step ∈ Intake.clearSteps r sources, r.Leads step.roster := by
  induction sources generalizing r with
  | nil => exact nofun
  | cons s rest ih =>
    have hfirst : r.Leads (r.clear s) := leads_perform r (.clear s) (fun _ => nofun)
    rw [Intake.clearSteps, List.forall_mem_cons]
    exact ⟨hfirst, fun step hstep => hfirst.trans (ih _ step hstep)⟩

/-- Every step of a run goes on from the roster that the run began with. -/
theorem leads_run (p : SourcePolicy) (r : Roster) (feed : Feed) (reason : StopReason) :
    ∀ step ∈ (Intake.run p r feed reason).steps, r.Leads step.roster := by
  have hpurge : r.Leads (Intake.purge r p.refused) := by
    refine ⟨p.refused.map .clear, ?_, Intake.purge_eq r p.refused⟩
    intro c hc
    obtain ⟨s, -, hs⟩ := List.mem_map.mp hc
    cases hs
  have hopening : ∀ step ∈ Intake.opening p r, r.Leads step.roster := by
    rw [Intake.opening, List.forall_mem_cons]
    exact ⟨Leads.refl r, leads_clearSteps r p.refused⟩
  rw [Intake.steps_run]
  cases feed.initial with
  | error cause => exact hopening
  | ok table =>
    have hhints := leads_steps p (Intake.purge r p.refused) (table ++ feed.stream)
    intro step hstep
    rcases List.mem_append.mp hstep with hstep | hstep
    · exact hopening step hstep
    rcases List.mem_append.mp hstep with hstep | hstep
    · exact hpurge.trans (hhints step hstep)
    · -- the last step changes nothing any more
      obtain rfl := List.mem_singleton.mp hstep
      refine hpurge.trans ?_
      refine ⟨((table ++ feed.stream).filter p.admits).map Hint.change, ?_, Intake.absorb_eq p _ _⟩
      intro c hc
      obtain ⟨hint, -, hchange⟩ := List.mem_map.mp hc
      exact hint.change_ne_add c hchange

/-! ## Well kept -/

/-- What is true of a roster at any time. The roster `t` lists the same records in some order. -/
structure WellKept (r : Roster) : Prop where
  /-- A record lies under its own address. -/
  own : ∀ a c, r.client? a = some c → c.addr = a
  /-- The address stands for one. -/
  specified : ∀ a c, r.client? a = some c → a.isUnspecified = false
  /-- No slot holds a single empty name. -/
  tidy : ∀ a c s, r.client? a = some c → c.hosts? s ≠ some [""]
  /-- The size is the number of addresses that have a record. -/
  counted : {a | (r.client? a).isSome}.encard = r.size
  /-- A copy of all records has each one once. -/
  copied : ∀ t : Roster, t.clients.Perm r.clients →
    t.snapshot.Nodup ∧ ∀ c, c ∈ t.snapshot ↔ ∃ a, r.client? a = some c
  /-- A visitor that has seen enough at a certain visit has seen that many records, or all there are, and none twice. -/
  visited : ∀ t : Roster, t.clients.Perm r.clients →
    ∀ (σ : Type) (visitor : σ → Client → σ × Bool) (start : σ) (k : Nat), 0 < k → BreaksAt visitor start t.clients k →
      t.visit visitor start = stateAfter visitor start (shown visitor start t) ∧
        (shown visitor start t).length = min k r.size ∧ (shown visitor start t).Nodup ∧
        ∀ c ∈ shown visitor start t, ∃ a, r.client? a = some c

/-- **A roster whose records are in order is well kept.** -/
theorem wellKept_of_kept {r : Roster} (h : Filing.Kept r.client?) : r.WellKept := by
  constructor
  case own => exact h.own
  case specified =>
    intro a c hc
    exact h.own a c hc ▸ (h.built a c hc).addr_specified
  case tidy =>
    intro a c s hc
    exact (h.built a c hc).hosts?_ne s
  case counted => exact encard_occupied r
  case copied =>
    intro t ht
    rw [snapshot_eq]
    refine ⟨nodup_clients t, ?_⟩
    intro c
    rw [ht.mem_iff, mem_clients_iff_exists]
  case visited =>
    intro t ht σ visitor start k hk hbreaks
    rw [visit_eq_stateAfter, shown_eq_take visitor hk hbreaks]
    refine ⟨rfl, ?_, (nodup_clients t).sublist (List.take_sublist k t.clients), ?_⟩
    · rw [List.length_take, ht.length_eq]
      rfl
    · intro c hc
      exact mem_clients_iff_exists.mp (ht.mem_iff.mp (List.mem_of_mem_take hc))

theorem getElem?_filing_history {deeds : List Deed} {place : Nat} {r : Roster} (hr : (history deeds)[place]? = some r) :
    (Filing.history deeds)[place]? = some r.client? := by
  rw [← map_client?_history, List.getElem?_map, hr]
  rfl

theorem wellKept_of_getElem?_history {deeds : List Deed}
    (hbuilt : ∀ place c, .change place (.add c) ∈ deeds → c.Built) {place : Nat} {r : Roster}
    (hr : (history deeds)[place]? = some r) : r.WellKept := by
  have hmem := List.mem_of_getElem? (getElem?_filing_history hr)
  exact wellKept_of_kept (Filing.kept_of_mem_history hbuilt _ hmem)

/-- **Rosters are well kept, whatever is done with them.** Take any deeds that begin with an empty roster: changes
that are asked of a roster, with records that were built where one is stored as it is; edits of a record in its place;
and copies, which go their own way from then on. Then each roster shows the records of a filing with the same deeds,
each record lies under its own address, which stands for one, and no slot holds a single empty name; the size is the
number of addresses with a record, and who goes through the records in any order meets each one once. All of this
stays so with every step of an intake that runs on the roster, which is a further history of the same kind. -/
theorem wellKept_history {deeds : List Deed} (hbuilt : ∀ place c, .change place (.add c) ∈ deeds → c.Built)
    {place : Nat} {r : Roster} (hr : (history deeds)[place]? = some r) :
    (Filing.history deeds)[place]? = some r.client? ∧ r.WellKept ∧
      ∀ p feed reason, ∀ step ∈ (Intake.run p r feed reason).steps, step.roster.WellKept ∧
        ∃ changes : List Change, (∀ c, .add c ∉ changes) ∧ step.roster = r.performAll changes ∧
          (history (deeds ++ changes.map (.change place)))[place]? = some step.roster := by
  refine ⟨getElem?_filing_history hr, wellKept_of_getElem?_history hbuilt hr, ?_⟩
  intro p feed reason step hstep
  obtain ⟨changes, hadd, hroster⟩ := leads_run p r feed reason step hstep
  have hlater : (history (deeds ++ changes.map (.change place)))[place]? = some step.roster := by
    rw [hroster]
    exact getElem?_history_changes hr changes
  refine ⟨wellKept_of_getElem?_history ?_ hlater, changes, hadd, hroster, hlater⟩
  intro other c hmem
  rcases List.mem_append.mp hmem with hmem | hmem
  · exact hbuilt other c hmem
  · -- an intake stores no record as it is
    obtain ⟨change, hchange, hdeed⟩ := List.mem_map.mp hmem
    obtain ⟨-, rfl⟩ := Deed.change.inj hdeed
    exact absurd hchange (hadd c)

/-- A record that is edited until another source names its client, one that is stored without anything in it, and a copy
that goes its own way. -/
def sampleDeeds (a b : Address) : List Deed := [
  .change 0 (.setHosts a .arp [""]),
  .edit 0 a [.unset .arp, .setHosts .dhcp [""]],
  .change 0 (.add (.vacant b)),
  .copy 0,
  .change 0 (.clear .arp),
  .edit 1 b [.setWhois {}]]

theorem wellKept_history_copy :
    let a : Address := .v4 ⟨192, 0, 2, 10⟩
    let b : Address := .v4 ⟨192, 0, 2, 11⟩
    let r := (((empty.perform (.setHosts a .arp [""])).editAll a [.unset .arp, .setHosts .dhcp [""]]).perform
      (.add (.vacant b))).editAll b [.setWhois {}]
    (∀ place c, .change place (.add c) ∈ sampleDeeds a b → c.Built) ∧ (history (sampleDeeds a b))[1]? = some r ∧
      (history (sampleDeeds a b))[0]?.map size = some 1 ∧ {x | (r.client? x).isSome}.encard = r.size ∧ r.size = 2 ∧
      r.snapshot = [(Client.vacant a).setHosts .dhcp [], (Client.vacant b).setWhois {}] ∧ r.snapshot.Nodup ∧
      (shown (counting 1) 0 r).length = 1 := by
  intro a b r
  have hbuilt : ∀ place c, .change place (.add c) ∈ sampleDeeds a b → c.Built := by
    intro place c hmem
    simp only [sampleDeeds, List.mem_cons, Deed.change.injEq, Change.add.injEq, reduceCtorEq, and_false, false_or,
      or_false, List.not_mem_nil] at hmem
    obtain ⟨-, rfl⟩ := hmem
    exact .new (a := b) rfl
  have hr : (history (sampleDeeds a b))[1]? = some r := by decide
  obtain ⟨-, hkept, -⟩ := wellKept_history hbuilt hr
  obtain ⟨hnodup, -⟩ := hkept.copied r (List.Perm.refl _)
  obtain ⟨-, hlength, -⟩ := hkept.visited r (List.Perm.refl _) Nat (counting 1) 0 1 Nat.one_pos (breaksAt_counting 1 _)
  exact ⟨hbuilt, hr, by decide, hkept.counted, by decide, by decide, hnodup, hlength.trans (by decide)⟩

end Roster

end ClientRoster
