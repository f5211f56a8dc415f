import ClientRoster.Proofs.Roster.Change

/-!
# `ClientRoster.Proofs.Roster.Reachable` — the rosters that can come about

A roster begins empty. From then on it is changed as a whole, or one of its records is edited in place; an edit in
place may leave a vacant record behind, which no change does.

## Contents
- `Roster.Reachable`, closed under lists of changes (`Reachable.performAll`).
- `Reachable.named`: no reachable roster has a record of an address that stands for none.
-/

namespace ClientRoster.Roster

/-- The rosters that can come about. -/
inductive Reachable : Roster → Prop
  | empty : Reachable .empty
  | change {r : Roster} (h : Reachable r) {change : Change} (hc : change.Lawful) : Reachable (r.perform change)
  | edit {r : Roster} (h : Reachable r) (a : Address) (e : Client.Edit) : Reachable (r.modify a (·.edit e))

theorem Reachable.performAll {r : Roster} (h : r.Reachable) {changes : List Change}
    (hc : ∀ c ∈ changes, c.Lawful) : (r.performAll changes).Reachable := by
  induction changes generalizing r with
  | nil => exact h
  | cons change rest ih =>
    rw [List.forall_mem_cons] at hc
    exact ih (h.change hc.1) hc.2

theorem named_modify {r : Roster} (h : r.Named) (a : Address) (e : Client.Edit) :
    (r.modify a (·.edit e)).Named := by
  intro b d hd
  rw [client?_modify r a b _ fun c => Client.addr_edit c e] at hd
  by_cases hb : b = a
  · subst hb
    cases hc : r.client? b with
    | none => simp [hc] at hd
    | some c => exact h b c hc
  · rw [if_neg hb] at hd
    exact h b d hd

/-- **Every record of a reachable roster belongs to an address that stands for one.** -/
theorem Reachable.named {r : Roster} (h : r.Reachable) : r.Named := by
  induction h with
  | empty => exact named_empty
  | change _ hc ih => exact named_perform ih hc
  | edit _ a e ih => exact named_modify ih a e

end ClientRoster.Roster
