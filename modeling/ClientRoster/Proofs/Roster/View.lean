import Mathlib.Data.List.Nodup
import ClientRoster.Roster

/-!
# `ClientRoster.Proofs.Roster.View` — a roster is its records by address

A roster lists its records in some order, which nobody who looks a client up can see. Two rosters with the same record
for each address list the same records.

## Contents
- `mem_clients_iff`, `mem_clients_iff_exists`, `nodup_clients`: the records that are listed are those that are found,
  and each is listed once.
- **`perm_clients`**: rosters with one view list the same records, and as many of them.
-/

namespace ClientRoster.Roster

theorem findIn_of_mem {clients : List Client} (h : (clients.map Client.addr).Nodup) {c : Client} (hc : c ∈ clients) :
    findIn clients c.addr = some c := by
  induction clients with
  | nil => cases hc
  | cons d rest ih =>
    rw [List.map_cons, List.nodup_cons] at h
    rw [findIn_cons]
    rcases List.mem_cons.mp hc with rfl | hc
    · rw [if_pos rfl]
    · -- no record of the rest has the address of the first
      have hne : d.addr ≠ c.addr := fun e => h.1 (e ▸ List.mem_map_of_mem hc)
      rw [if_neg hne, ih h.2 hc]

/-- A record is listed exactly when it is found under its address. -/
theorem mem_clients_iff {r : Roster} {c : Client} : c ∈ r.clients ↔ r.client? c.addr = some c := by
  constructor
  · exact findIn_of_mem r.nodup_addr
  · intro h
    exact List.mem_of_find?_eq_some h

/-- A record is listed exactly when it is found at all. -/
theorem mem_clients_iff_exists {r : Roster} {c : Client} : c ∈ r.clients ↔ ∃ a, r.client? a = some c := by
  constructor
  · intro hmem
    exact ⟨c.addr, mem_clients_iff.mp hmem⟩
  · rintro ⟨a, hc⟩
    exact List.mem_of_find?_eq_some hc

/-- No record is listed twice. -/
theorem nodup_clients (r : Roster) : r.clients.Nodup := r.nodup_addr.of_map Client.addr

/-- **Rosters with the same record for each address list the same records.** -/
theorem perm_clients {r t : Roster} (h : ∀ a, r.client? a = t.client? a) : r.clients.Perm t.clients := by
  rw [List.perm_ext_iff_of_nodup (nodup_clients r) (nodup_clients t)]
  intro c
  rw [mem_clients_iff, mem_clients_iff, h]

end ClientRoster.Roster
