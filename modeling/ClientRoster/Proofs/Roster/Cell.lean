import ClientRoster.Proofs.Roster.Change

/-!
# `ClientRoster.Proofs.Roster.Cell` — a roster as a table of cells

There is a *cell* for each address and source: what that source knows about that address. Records come and go with
the cells of their address, so a roster without vacant records says no more than its cells do. What a change does is
much simpler to say of a cell than of a record: it leaves a certain content there, or it does not touch the cell.

## Contents
- `Roster.cell?`, and what each operation does to it.
- `Change.leaves?`, and **`cell?_perform`: what one change does to one cell**.
- `isSome_client?_iff`, `client?_eq_of_cells`, `resolve?_eq_some_iff`: the records and the resolution of a roster
  from its cells.
-/

namespace ClientRoster

namespace Roster

/-! ## Cells -/

/-- What a source knows about an address, as far as the roster tells. -/
def cell? (r : Roster) (a : Address) (s : Source) : Option Slot := (r.client? a).bind (·.slot? s)

/-- The persistent source knows nothing of any address. -/
theorem cell?_persistent (r : Roster) (a : Address) : r.cell? a .persistent = none := by
  unfold cell?
  cases r.client? a <;> rfl

theorem slot?_record (r : Roster) (a : Address) (s : Source) : (r.record a).slot? s = r.cell? a s := by
  unfold record cell?
  cases r.client? a with
  | none => simp
  | some c => rfl

theorem cell?_add (r : Roster) (c : Client) (a : Address) (s : Source) :
    (r.add c).cell? a s = if a = c.addr then c.slot? s else r.cell? a s := by
  unfold cell?
  rw [client?_add]
  by_cases ha : a = c.addr <;> simp [ha]

/-- Removing a vacant record takes nothing from its cells. -/
theorem bind_slot?_filter (c? : Option Client) (s : Source) :
    (c?.filter (!·.isVacant)).bind (·.slot? s) = c?.bind (·.slot? s) := by
  cases c? with
  | none => rfl
  | some c =>
    cases hv : c.isVacant with
    | false => simp [Option.filter, hv]
    | true =>
      have hs := (Client.isVacant_iff c).mp hv s
      simp [Option.filter, hv, hs]

theorem bind_slot?_unset (c? : Option Client) (s t : Source) :
    (c?.map (·.unset s)).bind (·.slot? t) = if t = s then none else c?.bind (·.slot? t) := by
  cases c? with
  | none => simp
  | some c => simp [Client.slot?_unset]

theorem cell?_unset (r : Roster) (a b : Address) (s t : Source) :
    (r.unset a s).cell? b t = if b = a ∧ t = s then none else r.cell? b t := by
  unfold cell?
  rw [client?_unset]
  by_cases hb : b = a
  · subst hb
    simp [bind_slot?_filter, bind_slot?_unset]
  · simp [hb]

theorem cell?_erase (r : Roster) (a b : Address) (s : Source) :
    (r.erase a).cell? b s = if b = a then none else r.cell? b s := by
  unfold cell?
  rw [client?_erase]
  by_cases hb : b = a <;> simp [hb]

theorem cell?_clear (r : Roster) (s t : Source) (a : Address) :
    (r.clear s).cell? a t = if t = s then none else r.cell? a t := by
  unfold cell?
  rw [client?_clear, bind_slot?_filter, bind_slot?_unset]

end Roster

/-- What a change that succeeds leaves in a cell; `none` if the change is about other cells. -/
def Change.leaves? (a : Address) (s : Source) : Change → Option (Option Slot)
  | setHosts b t hosts => if a = b ∧ s = t then some (some (.names (storedHosts hosts))) else none
  | setWhois b entry => if a = b ∧ s = .whois then some (some (.registration entry)) else none
  | unset b t => if a = b ∧ s = t then some none else none
  | erase b => if a = b then some none else none
  | clear t => if s = t then some none else none
  | add c => if a = c.addr then some (c.slot? s) else none

namespace Roster

theorem cell?_effect (r : Roster) {change : Change} (hs : change.succeeds = true) (a : Address) (s : Source) :
    (r.effect change).cell? a s = (change.leaves? a s).getD (r.cell? a s) := by
  cases change with
  | setHosts b t hosts =>
    simp only [Change.succeeds, Bool.and_eq_true] at hs
    simp only [effect, Change.leaves?, cell?_add, Client.addr_setHosts, addr_record, Client.slot?_setHosts,
      slot?_record, hs.1, and_true]
    by_cases ha : a = b <;> by_cases ht : s = t <;> simp [ha, ht]
  | setWhois b entry =>
    simp only [effect, Change.leaves?, cell?_add, Client.addr_setWhois, addr_record, Client.slot?_setWhois,
      slot?_record]
    by_cases ha : a = b <;> by_cases ht : s = .whois <;> simp [ha, ht]
  | unset b t =>
    simp only [effect, Change.leaves?, cell?_unset]
    split <;> rfl
  | erase b =>
    simp only [effect, Change.leaves?, cell?_erase]
    split <;> rfl
  | clear t =>
    simp only [effect, Change.leaves?, cell?_clear]
    split <;> rfl
  | add c =>
    simp only [effect, Change.leaves?, cell?_add]
    split <;> rfl

/-- **What one change does to one cell.** -/
theorem cell?_perform {r : Roster} (h : r.Named) (change : Change) (a : Address) (s : Source) :
    (r.perform change).cell? a s =
      if change.succeeds then (change.leaves? a s).getD (r.cell? a s) else r.cell? a s := by
  rw [perform_eq h]
  by_cases hs : change.succeeds = true
  · rw [if_pos hs, if_pos hs, cell?_effect r hs]
  · rw [if_neg hs, if_neg hs]

/-- A record that is not vacant shows in a cell, so the address has one exactly when one of its cells is occupied. -/
theorem isSome_client?_iff_at {r : Roster} {a : Address} (h : r.OccupiedAt a) :
    (r.client? a).isSome ↔ ∃ s, (r.cell? a s).isSome := by
  unfold cell?
  cases hc : r.client? a with
  | none => simp
  | some c =>
    -- this is where a vacant record would be in the way
    have hv : ¬ ∀ s, c.slot? s = none := by
      rw [← Client.isVacant_iff, h c hc]
      simp
    simpa [Option.isSome_iff_ne_none] using hv

/-- Where two rosters have no vacant record, they have the same record if they have the same cells. -/
theorem client?_eq_of_cells_at {r t : Roster} {a : Address} (hr : r.OccupiedAt a) (ht : t.OccupiedAt a)
    (h : ∀ s, r.cell? a s = t.cell? a s) : r.client? a = t.client? a := by
  have hsome : (r.client? a).isSome ↔ (t.client? a).isSome := by
    rw [isSome_client?_iff_at hr, isSome_client?_iff_at ht]
    simp only [h]
  cases hc : r.client? a with
  | none =>
    cases hd : t.client? a with
    | none => rfl
    | some d =>
      rw [hc, hd] at hsome
      exact absurd (hsome.mpr rfl) (by simp)
  | some c =>
    rw [hc] at hsome
    obtain ⟨d, hd⟩ := Option.isSome_iff_exists.mp (hsome.mp rfl)
    rw [hd]
    refine congrArg some (Client.ext_slots ((addr_of_client? hc).trans (addr_of_client? hd).symm) ?_)
    intro s
    simpa [cell?, hc, hd] using h s

/-- An address has a record exactly when one of its cells is occupied, unless records may be vacant. -/
theorem isSome_client?_iff {r : Roster} (h : r.Occupied) (a : Address) :
    (r.client? a).isSome ↔ ∃ s, (r.cell? a s).isSome :=
  isSome_client?_iff_at (h a)

/-- Rosters without vacant records are determined by their cells. -/
theorem client?_eq_of_cells {r t : Roster} (hr : r.Occupied) (ht : t.Occupied)
    (h : ∀ a s, r.cell? a s = t.cell? a s) (a : Address) : r.client? a = t.client? a :=
  client?_eq_of_cells_at (hr a) (ht a) (h a)

/-! ## Resolution through the cells -/

theorem resolve?_eq_some_iff {r : Roster} {a : Address} {s : Source} {name : String} :
    r.resolve? a = some (s, name) ↔
      ∃ slot, r.cell? a s = some slot ∧ slot.firstName = name ∧ ∀ t, (r.cell? a t).isSome → t ≤ s := by
  unfold resolve? cell?
  cases r.client? a with
  | none => simp
  | some c => exact Client.resolve?_eq_some_iff

theorem resolve?_eq_none_iff {r : Roster} {a : Address} : r.resolve? a = none ↔ ∀ s, r.cell? a s = none := by
  unfold resolve? cell?
  cases r.client? a with
  | none => simp
  | some c => exact Client.resolve?_eq_none_iff

end Roster

end ClientRoster
