import Mathlib.Data.Set.Defs
import ClientRoster.Proofs.Intake.Purge
import ClientRoster.Proofs.Roster.View

/-!
# `ClientRoster.Proofs.Intake.Independent` — reports of different cells may come in any order

Mechanisms that report on different clients, or on one client from different sources, do not know of each other, and
their hints arrive mixed. The mixture makes no difference: a cell holds what was written there last, and only one of two
independent lists writes it. A record that one list makes and the other one takes away again is no exception. Whether an
address has a record is a matter of its cells, once any hint has reached it; and that some hint does is a matter of the
two lists and not of their order.

## Contents
- `Hint.footprint`, `Hint.Apart`: the cells that a hint is about, and hints without a common one.
- `Interleaved`: two lists mixed, each in its own order.
- `SourcePolicy.writes?`, `cell?_handle`, `cell?_absorb`: a cell after one hint, and after many.
- `SourcePolicy.reaches`, `client?_absorb_of_not_reaches`, `occupiedAt_absorb`: the addresses that hints reach.
- **`client?_absorb_interleaved`: two mixtures of independent hints leave the same records.**
-/

namespace ClientRoster

/-- The cells that a hint is about; the persistent source has no cells. -/
def Hint.footprint (hint : Hint) : Set (Address × Source) :=
  {cell | cell.2 ≠ .persistent ∧ match hint with
    | .hosts a s _ => cell = (a, s)
    | .whois a _ => cell = (a, .whois)
    | .unset a s => cell = (a, s)
    | .remove a => cell.1 = a
    | .sourceDisabled s => cell.2 = s}

/-- No cell concerns both hints. -/
def Hint.Apart (h k : Hint) : Prop := ∀ cell ∈ h.footprint, cell ∉ k.footprint

/-! ## Mixtures -/

/-- The third list is a mixture of the other two, each of which keeps its order. -/
inductive Interleaved {α : Type} : List α → List α → List α → Prop
  | nil : Interleaved [] [] []
  | left {x : α} {first second mixed : List α} (h : Interleaved first second mixed) :
      Interleaved (x :: first) second (x :: mixed)
  | right {x : α} {first second mixed : List α} (h : Interleaved first second mixed) :
      Interleaved first (x :: second) (x :: mixed)

namespace Interleaved

variable {α β : Type} {first second mixed : List α}

theorem symm (h : Interleaved first second mixed) : Interleaved second first mixed := by
  induction h with
  | nil => exact .nil
  | left _ ih => exact .right ih
  | right _ ih => exact .left ih

theorem mem_iff (h : Interleaved first second mixed) {x : α} : x ∈ mixed ↔ x ∈ first ∨ x ∈ second := by
  induction h with
  | nil => simp
  | left _ ih => rw [List.mem_cons, List.mem_cons, ih, or_assoc]
  | right _ ih => rw [List.mem_cons, List.mem_cons, ih, or_left_comm]

/-- What is picked from a mixture is picked from the first list alone if there is nothing to pick in the second. -/
theorem filterMap_eq (h : Interleaved first second mixed) {f : α → Option β} (hf : ∀ x ∈ second, f x = none) :
    mixed.filterMap f = first.filterMap f := by
  induction h with
  | nil => rfl
  | left _ ih => rw [List.filterMap_cons, List.filterMap_cons, ih hf]
  | right _ ih =>
    obtain ⟨hx, hrest⟩ := List.forall_mem_cons.mp hf
    rw [List.filterMap_cons_none hx, ih hrest]

end Interleaved

/-! ## One cell -/

/-- What a hint writes into a cell, if a policy admits it; `none` if it leaves the cell as it is. -/
def SourcePolicy.writes? (p : SourcePolicy) (a : Address) (s : Source) (hint : Hint) : Option (Option Slot) :=
  if p.admits hint && hint.change.succeeds then hint.change.leaves? a s else none

/-- May a hint have an effect on the record of an address, if a policy admits it? -/
def SourcePolicy.reaches (p : SourcePolicy) (a : Address) (hint : Hint) : Bool :=
  p.admits hint && hint.change.succeeds && hint.change.reaches a

namespace Intake

open Roster

variable {p : SourcePolicy} {a : Address}

theorem cell?_handle {r : Roster} (h : r.Named) (hint : Hint) (s : Source) :
    (handle p r hint).roster.cell? a s = (p.writes? a s hint).getD (r.cell? a s) := by
  rw [roster_handle, SourcePolicy.writes?]
  cases hadmits : p.admits hint with
  | false => rfl
  | true =>
    rw [if_pos rfl, cell?_perform h, Bool.true_and]
    split <;> rfl

/-- **A cell holds what the last hint to write it wrote,** and what it held before if none did. -/
theorem cell?_absorb {r : Roster} (h : r.Named) (hints : List Hint) (s : Source) :
    (absorb p r hints).cell? a s = (hints.filterMap (p.writes? a s)).getLastD (r.cell? a s) := by
  induction hints generalizing r with
  | nil => rfl
  | cons hint rest ih =>
    rw [absorb_cons, ih (named_handle h p hint), cell?_handle h]
    cases hw : p.writes? a s hint with
    | none =>
      rw [List.filterMap_cons_none hw]
      rfl
    | some left =>
      rw [List.filterMap_cons_some hw, List.getLastD_cons]
      rfl

theorem of_ite_ne_none {α : Type} {c : Prop} [Decidable c] {x : α} (h : (if c then some x else none) ≠ none) : c := by
  by_contra hc
  exact h (if_neg hc)

/-- A hint writes in its footprint alone. -/
theorem mem_footprint {hint : Hint} {s : Source} (hs : s ≠ .persistent) (h : p.writes? a s hint ≠ none) :
    (a, s) ∈ hint.footprint := by
  have hleaves : hint.change.leaves? a s ≠ none := by
    intro hnone
    rw [SourcePolicy.writes?, hnone, ite_self] at h
    exact h rfl
  refine ⟨hs, ?_⟩
  cases hint with
  | hosts b t names =>
    obtain ⟨rfl, rfl⟩ := of_ite_ne_none hleaves
    rfl
  | whois b entry =>
    obtain ⟨rfl, rfl⟩ := of_ite_ne_none hleaves
    rfl
  | unset b t =>
    obtain ⟨rfl, rfl⟩ := of_ite_ne_none hleaves
    rfl
  | remove b => exact of_ite_ne_none hleaves
  | sourceDisabled t => exact of_ite_ne_none hleaves

/-! ## The record of one address -/

theorem client?_handle_of_not_reaches {r : Roster} (h : r.Named) {hint : Hint} (hr : p.reaches a hint = false) :
    (handle p r hint).roster.client? a = r.client? a := by
  rw [roster_handle]
  cases hadmits : p.admits hint with
  | false => rfl
  | true =>
    rw [if_pos rfl, perform_eq h]
    cases hs : hint.change.succeeds with
    | false => rfl
    | true =>
      have hreach : hint.change.reaches a = false := by simpa [SourcePolicy.reaches, hadmits, hs] using hr
      rw [if_pos rfl, client?_effect_of_not_reaches r hreach]

theorem occupiedAt_handle_of_reaches {r : Roster} (h : r.Named) {hint : Hint} (hr : p.reaches a hint = true) :
    (handle p r hint).roster.OccupiedAt a := by
  simp only [SourcePolicy.reaches, Bool.and_eq_true] at hr
  obtain ⟨⟨hadmits, hs⟩, hreach⟩ := hr
  have hoccupying : hint.change.Occupying := by cases hint <;> trivial
  rw [roster_handle, if_pos hadmits, perform_eq h, if_pos hs]
  exact occupiedAt_effect r hs hoccupying hreach

/-- Hints that reach no record of an address leave it as it is. -/
theorem client?_absorb_of_not_reaches {r : Roster} (h : r.Named) {hints : List Hint}
    (hr : ∀ hint ∈ hints, p.reaches a hint = false) : (absorb p r hints).client? a = r.client? a := by
  induction hints generalizing r with
  | nil => rfl
  | cons hint rest ih =>
    obtain ⟨hhint, hrest⟩ := List.forall_mem_cons.mp hr
    rw [absorb_cons, ih (named_handle h p hint) hrest, client?_handle_of_not_reaches h hhint]

theorem occupiedAt_handle {r : Roster} (h : r.Named) (ho : r.OccupiedAt a) (hint : Hint) :
    (handle p r hint).roster.OccupiedAt a := by
  cases hr : p.reaches a hint with
  | true => exact occupiedAt_handle_of_reaches h hr
  | false =>
    intro c
    rw [client?_handle_of_not_reaches h hr]
    exact ho c

theorem occupiedAt_absorb_of_occupiedAt {r : Roster} (h : r.Named) (ho : r.OccupiedAt a) (hints : List Hint) :
    (absorb p r hints).OccupiedAt a := by
  induction hints generalizing r with
  | nil => exact ho
  | cons hint rest ih => exact ih (named_handle h p hint) (occupiedAt_handle h ho hint)

/-- Once a hint has reached an address, its record is never vacant. -/
theorem occupiedAt_absorb {r : Roster} (h : r.Named) {hints : List Hint}
    (hr : ∃ hint ∈ hints, p.reaches a hint = true) : (absorb p r hints).OccupiedAt a := by
  induction hints generalizing r with
  | nil =>
    obtain ⟨hint, hmem, -⟩ := hr
    cases hmem
  | cons hint rest ih =>
    have hnamed := named_handle h p hint
    by_cases hhint : p.reaches a hint = true
    · exact occupiedAt_absorb_of_occupiedAt hnamed (occupiedAt_handle_of_reaches h hhint) rest
    · obtain ⟨other, hmem, hother⟩ := hr
      rcases List.mem_cons.mp hmem with rfl | hmem
      · exact absurd hother hhint
      · exact ih hnamed ⟨other, hmem, hother⟩

/-! ## Independent hints -/

variable {first second mixed other : List Hint}

/-- At most one of two independent lists writes a given cell. -/
theorem writes?_eq_none_or {s : Source} (hs : s ≠ .persistent)
    (hapart : ∀ h ∈ first, ∀ k ∈ second, h.Apart k) :
    (∀ h ∈ first, p.writes? a s h = none) ∨ ∀ k ∈ second, p.writes? a s k = none := by
  by_cases hfirst : ∀ h ∈ first, p.writes? a s h = none
  · exact Or.inl hfirst
  · push Not at hfirst
    obtain ⟨h, hmem, hwrites⟩ := hfirst
    refine Or.inr ?_
    intro k hk
    by_contra hkwrites
    exact hapart h hmem k hk (a, s) (mem_footprint hs hwrites) (mem_footprint hs hkwrites)

/-- Two mixtures of independent hints write the same into each cell, in the same order. -/
theorem filterMap_writes?_eq {s : Source} (hs : s ≠ .persistent)
    (hapart : ∀ h ∈ first, ∀ k ∈ second, h.Apart k)
    (hmixed : Interleaved first second mixed) (hother : Interleaved first second other) :
    mixed.filterMap (p.writes? a s) = other.filterMap (p.writes? a s) := by
  rcases writes?_eq_none_or (p := p) (a := a) hs hapart with hnone | hnone
  · rw [hmixed.symm.filterMap_eq hnone, hother.symm.filterMap_eq hnone]
  · rw [hmixed.filterMap_eq hnone, hother.filterMap_eq hnone]

/-- **Independent reports commute.** If no hint of one list is about a cell that a hint of another list is about, then
any two mixtures of the two lists, applied to a reachable roster under any policy, leave the same record for each
address; the rosters list the same records. -/
theorem client?_absorb_interleaved (p : SourcePolicy) {r : Roster} (hr : r.Reachable)
    (hapart : ∀ h ∈ first, ∀ k ∈ second, h.Apart k)
    (hmixed : Interleaved first second mixed) (hother : Interleaved first second other) :
    (∀ a, (absorb p r mixed).client? a = (absorb p r other).client? a) ∧
      (absorb p r mixed).clients.Perm (absorb p r other).clients := by
  have hnamed := hr.named
  have hsame : ∀ a, (absorb p r mixed).client? a = (absorb p r other).client? a := by
    intro a
    have hmem : ∀ hint, hint ∈ mixed ↔ hint ∈ other := by
      intro hint
      rw [hmixed.mem_iff, hother.mem_iff]
    by_cases hreach : ∃ hint ∈ mixed, p.reaches a hint = true
    · -- the address is reached in both, so its record is what its cells say
      have hreach' : ∃ hint ∈ other, p.reaches a hint = true := by simpa only [hmem] using hreach
      refine client?_eq_of_cells_at (occupiedAt_absorb hnamed hreach) (occupiedAt_absorb hnamed hreach') ?_
      intro s
      by_cases hs : s = .persistent
      · rw [hs, cell?_persistent, cell?_persistent]
      · rw [cell?_absorb hnamed, cell?_absorb hnamed, filterMap_writes?_eq hs hapart hmixed hother]
    · -- nobody has anything to say about the address, and its record may even be vacant
      have hmixed' : ∀ hint ∈ mixed, p.reaches a hint = false := by simpa using hreach
      have hother' : ∀ hint ∈ other, p.reaches a hint = false := by simpa only [hmem] using hmixed'
      rw [client?_absorb_of_not_reaches hnamed hmixed', client?_absorb_of_not_reaches hnamed hother']
  exact ⟨hsame, perm_clients hsame⟩

/-- One list makes the record of an address and takes it away again, which the other list fills in the meantime. -/
theorem client?_absorb_interleaved_one_record :
    let a : Address := .v4 ⟨192, 0, 2, 10⟩
    let b : Address := .v4 ⟨192, 0, 2, 11⟩
    let p : SourcePolicy := { whois := false }
    let first : List Hint := [.hosts a .arp ["camera"], .unset a .arp]
    let second : List Hint := [.hosts a .dhcp ["tablet"], .remove b, .sourceDisabled .rdns]
    let mixed : List Hint := [.hosts a .arp ["camera"], .hosts a .dhcp ["tablet"], .unset a .arp, .remove b,
      .sourceDisabled .rdns]
    (sampleRoster a b).Reachable ∧ (∀ h ∈ first, ∀ k ∈ second, h.Apart k) ∧
      Interleaved first second (first ++ second) ∧ Interleaved first second mixed ∧
      (absorb p (sampleRoster a b) (first ++ second)).client? a = some ((Client.vacant a).setHosts .dhcp ["tablet"]) ∧
      (absorb p (sampleRoster a b) mixed).client? a = some ((Client.vacant a).setHosts .dhcp ["tablet"]) := by
  intro a b p first second mixed
  have hapart : ∀ h ∈ first, ∀ k ∈ second, h.Apart k := by
    intro h hh k hk
    simp only [first, second, List.mem_cons, List.not_mem_nil, or_false] at hh hk
    rintro ⟨x, s⟩ ⟨-, hx⟩ ⟨-, hy⟩
    rcases hh with rfl | rfl <;> rcases hk with rfl | rfl | rfl <;> simp_all [a, b]
  have hrow : Interleaved first second (first ++ second) := .left (.left (.right (.right (.right .nil))))
  have hmixed : Interleaved first second mixed := .left (.right (.left (.right (.right .nil))))
  have hr := reachable_sampleRoster a b
  have hone : (absorb p (sampleRoster a b) (first ++ second)).client? a =
      some ((Client.vacant a).setHosts .dhcp ["tablet"]) := by
    decide
  exact ⟨hr, hapart, hrow, hmixed, hone, ((client?_absorb_interleaved p hr hapart hrow hmixed).1 a).symm.trans hone⟩

end Intake

end ClientRoster
