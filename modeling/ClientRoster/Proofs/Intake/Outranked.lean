import ClientRoster.Proofs.Intake.Independent

/-!
# `ClientRoster.Proofs.Intake.Outranked` — weak sources do not disturb strong ones

A hint of a weak source may make a record, keep one alive or take the last of it away, so leaving such hints out changes
which clients there are. It does not change what the stronger sources know: a hint writes the cells of its own source
alone, and the end of a client, which writes the cells of all, is never left out. Nor does it change by what name a
client goes as long as a strong source names it, since resolution asks the strong ones first.

## Contents
- `Hint.weakerThan`, `Hint.withoutWeaker`, `Feed.withoutWeaker`: the hints of weak sources left out.
- `Roster.AgreeFrom`: two rosters that differ in weak sources alone; `agreeFrom_of_cells`.
- `writes?_of_weakerThan`, `cell?_absorb_withoutWeaker`: what a strong source knows is left by its own hints.
- **`agreeFrom_withoutWeaker`**: a run with the hints of weak sources, and one without them.
-/

namespace ClientRoster

/-- Is a hint about a source weaker than a given one? The end of a client is about no source. -/
def Hint.weakerThan (w : Source) (hint : Hint) : Bool :=
  match hint.source? with
  | some s => decide (s < w)
  | none => false

/-- Some hints, without those about sources weaker than a given one. -/
def Hint.withoutWeaker (w : Source) (hints : List Hint) : List Hint := hints.filter fun hint => !hint.weakerThan w

/-- A feed that leaves out all hints about sources weaker than a given one. -/
def Feed.withoutWeaker (w : Source) (feed : Feed) : Feed :=
  { feed with
    initial := feed.initial.map (Hint.withoutWeaker w)
    stream := Hint.withoutWeaker w feed.stream }

namespace Roster

/-- No source from a given one upwards names the client: a weaker one does, or none at all. -/
def NamedBelow (r : Roster) (w : Source) (a : Address) : Prop := ∀ s name, r.resolve? a = some (s, name) → s < w

/-- The two rosters hold the same from the sources from a given one upwards, and a client that one of these names
goes by the same name in both. -/
structure AgreeFrom (w : Source) (r t : Roster) : Prop where
  cell?_eq : ∀ a s, w ≤ s → r.cell? a s = t.cell? a s
  resolve?_iff : ∀ a s name, w ≤ s → (r.resolve? a = some (s, name) ↔ t.resolve? a = some (s, name))
  namedBelow_iff : ∀ a, r.NamedBelow w a ↔ t.NamedBelow w a

variable {w : Source} {r t : Roster}

theorem resolve?_of_cells (h : ∀ a s, w ≤ s → r.cell? a s = t.cell? a s) {a : Address} {s : Source} {name : String}
    (hs : w ≤ s) (hr : r.resolve? a = some (s, name)) : t.resolve? a = some (s, name) := by
  obtain ⟨slot, hslot, hname, hmax⟩ := resolve?_eq_some_iff.mp hr
  refine resolve?_eq_some_iff.mpr ⟨slot, ?_, hname, ?_⟩
  · rw [← h a s hs]
    exact hslot
  · intro u hu
    by_cases hwu : w ≤ u
    · apply hmax u
      rw [h a u hwu]
      exact hu
    · -- the two rosters may differ here, but the source is too weak to matter
      rw [Source.le_def] at hs hwu ⊢
      omega

theorem namedBelow_of_cells (h : ∀ a s, w ≤ s → r.cell? a s = t.cell? a s) {a : Address} (hr : r.NamedBelow w a) :
    t.NamedBelow w a := by
  intro s name ht
  by_cases hs : w ≤ s
  · have hsymm : ∀ a s, w ≤ s → t.cell? a s = r.cell? a s := by
      intro b u hu
      exact (h b u hu).symm
    exact hr s name (resolve?_of_cells hsymm hs ht)
  · rw [Source.le_def] at hs
    rw [Source.lt_def]
    omega

/-- **The cells of the strong sources decide the names that they give.** -/
theorem agreeFrom_of_cells (h : ∀ a s, w ≤ s → r.cell? a s = t.cell? a s) : AgreeFrom w r t where
  cell?_eq := h
  resolve?_iff := by
    intro a s name hs
    constructor
    · exact resolve?_of_cells h hs
    · exact resolve?_of_cells (fun b u hu => (h b u hu).symm) hs
  namedBelow_iff := by
    intro a
    constructor
    · exact namedBelow_of_cells h
    · exact namedBelow_of_cells fun b u hu => (h b u hu).symm

end Roster

namespace Intake

open Roster Hint

variable {p : SourcePolicy} {w : Source}

/-! ## What strong sources know -/

/-- A hint about a weak source writes no cell of a stronger one. -/
theorem writes?_of_weakerThan {hint : Hint} (h : hint.weakerThan w = true) {s : Source} (hs : w ≤ s) (a : Address) :
    p.writes? a s hint = none := by
  have other {t : Source} (ht : decide (t < w) = true) : s ≠ t := by
    rintro rfl
    have hlt := Source.lt_def.mp (of_decide_eq_true ht)
    have hle := Source.le_def.mp hs
    omega
  have hleaves : hint.change.leaves? a s = none := by
    cases hint with
    | hosts b t names => exact if_neg fun hcell => other h hcell.2
    | whois b entry => exact if_neg fun hcell => other h hcell.2
    | unset b t => exact if_neg fun hcell => other h hcell.2
    | remove b => cases h
    | sourceDisabled t => exact if_neg (other h)
  rw [SourcePolicy.writes?, hleaves, ite_self]

theorem filterMap_withoutWeaker (hints : List Hint) {s : Source} (hs : w ≤ s) (a : Address) :
    (withoutWeaker w hints).filterMap (p.writes? a s) = hints.filterMap (p.writes? a s) := by
  induction hints with
  | nil => rfl
  | cons hint rest ih =>
    cases hweak : hint.weakerThan w with
    | true =>
      have hdrop : withoutWeaker w (hint :: rest) = withoutWeaker w rest := List.filter_cons_of_neg (by simp [hweak])
      rw [hdrop, ih, List.filterMap_cons_none (writes?_of_weakerThan hweak hs a)]
    | false =>
      have hkeep : withoutWeaker w (hint :: rest) = hint :: withoutWeaker w rest :=
        List.filter_cons_of_pos (by simp [hweak])
      rw [hkeep, List.filterMap_cons, List.filterMap_cons, ih]

/-- **What a strong source knows is left by hints that are not about weaker ones.** -/
theorem cell?_absorb_withoutWeaker {r : Roster} (h : r.Named) (hints : List Hint) (a : Address) {s : Source}
    (hs : w ≤ s) : (absorb p r hints).cell? a s = (absorb p r (withoutWeaker w hints)).cell? a s := by
  rw [cell?_absorb h, cell?_absorb h, filterMap_withoutWeaker hints hs]

/-- A run with a feed that leaves hints out is a run with fewer hints, from the same opening. -/
theorem roster_run_withoutWeaker (p : SourcePolicy) (r : Roster) (w : Source) (feed : Feed) (reason : StopReason) :
    (run p r (feed.withoutWeaker w) reason).roster = match feed.initial with
      | .error _ => purge r p.refused
      | .ok table => absorb p (purge r p.refused) (withoutWeaker w (table ++ feed.stream)) := by
  rw [roster_run]
  cases hinitial : feed.initial with
  | error cause => simp [Feed.withoutWeaker, hinitial, Except.map]
  | ok table => simp [Feed.withoutWeaker, hinitial, Except.map, withoutWeaker]

/-! ## Two runs -/

/-- **Weak sources do not interfere with the names that strong ones give.** From any reachable roster and under any
policy, take some hints, or a feed, and leave out all hints about sources weaker than a given one. Of the sources from
that one upwards, both leave the same of every address; a client that such a source names in one goes by the same source
and name in the other; and one that a weaker source names, or none, is named by a weaker one or by none in the other. -/
theorem agreeFrom_withoutWeaker (p : SourcePolicy) {r : Roster} (hr : r.Reachable) (w : Source) :
    (∀ hints, AgreeFrom w (absorb p r hints) (absorb p r (withoutWeaker w hints))) ∧
      ∀ feed reason, AgreeFrom w (run p r feed reason).roster (run p r (feed.withoutWeaker w) reason).roster := by
  constructor
  · intro hints
    apply agreeFrom_of_cells
    intro a s hs
    exact cell?_absorb_withoutWeaker hr.named hints a hs
  · intro feed reason
    rw [roster_run, roster_run_withoutWeaker]
    apply agreeFrom_of_cells
    intro a s hs
    cases feed.initial with
    | error cause => rfl
    | ok table => exact cell?_absorb_withoutWeaker (hr.purge p.refused).named _ a hs

/-- Registration data keep a record alive that is gone without them; the address server names the other client in
both. -/
theorem agreeFrom_withoutWeaker_dhcp :
    let a : Address := .v4 ⟨192, 0, 2, 10⟩
    let b : Address := .v4 ⟨192, 0, 2, 11⟩
    let p : SourcePolicy := { rdns := false }
    let hints : List Hint := [.hosts a .arp ["camera"], .hosts b .dhcp ["phone"], .whois b {}, .unset b .dhcp,
      .hosts a .dhcp ["tablet", "pad"], .sourceDisabled .arp, .hosts a .rdns ["host"]]
    (sampleRoster a b).Reachable ∧ withoutWeaker .dhcp hints = [.hosts b .dhcp ["phone"], .unset b .dhcp,
        .hosts a .dhcp ["tablet", "pad"]] ∧
      ((absorb p (sampleRoster a b) hints).client? b).isSome ∧
      (absorb p (sampleRoster a b) (withoutWeaker .dhcp hints)).client? b = none ∧
      (absorb p (sampleRoster a b) hints).resolve? a = some (.dhcp, "tablet") ∧
      (absorb p (sampleRoster a b) (withoutWeaker .dhcp hints)).resolve? a = some (.dhcp, "tablet") := by
  intro a b p hints
  have hr := reachable_sampleRoster a b
  have hagree := (agreeFrom_withoutWeaker p hr .dhcp).1 hints
  have hname : (absorb p (sampleRoster a b) hints).resolve? a = some (.dhcp, "tablet") := by decide
  exact ⟨hr, by decide, by decide, by decide, hname, (hagree.resolve?_iff a .dhcp "tablet" (by decide)).mp hname⟩

end Intake

end ClientRoster
