import ClientRoster.Proofs.Intake.Announced
import ClientRoster.Proofs.Intake.Kept
import ClientRoster.Proofs.Roster.Visit

/-!
# `ClientRoster.Proofs.Roster.Clientwise` — a withdrawal everywhere, client by client

A source is withdrawn everywhere at once, or from one client after the other. Both ways leave the same records, in
whatever order the clients come. Which clients go depends on the order in which *sources* are withdrawn: a client goes
with the last source that knew it. How many go in all does not.

The counts follow from one law of conservation: a withdrawal takes as many clients from the roster as it says.

## Contents
- `unsetAll`, `departures`: one source and some addresses; `removedByPurge`: some sources, each everywhere.
- `size_unset`, `size_unsetAll`, `size_purge`: what is left and what went make up what was there.
- `client?_unsetAll`: the records on the way; `encard_known_only_by`: the clients that go with some sources.
- **`clear_clientwise`**: withdrawals everywhere and client by client, and any order of sources.
-/

namespace ClientRoster.Roster

open Intake

/-- The roster after a source was withdrawn from some addresses, one after the other. -/
def unsetAll (r : Roster) (s : Source) (order : List Address) : Roster := order.foldl (·.unset · s) r

/-- What each of these withdrawals answers: did a client go with it? -/
def departures (r : Roster) (s : Source) : List Address → List Bool
  | [] => []
  | a :: rest => r.vacatedBy a s :: departures (r.unset a s) s rest

/-- How many clients go with each of some sources that are withdrawn everywhere, one source after the other. -/
def removedByPurge (r : Roster) : List Source → List Nat
  | [] => []
  | s :: rest => r.removedByClear s :: removedByPurge (r.clear s) rest

/-! ## Sizes -/

/-- Without one of its records, a roster lists the others. -/
theorem perm_erase {r : Roster} {a : Address} {c : Client} (h : r.client? a = some c) :
    r.clients.Perm (c :: (r.erase a).clients) := by
  have hown : c.addr = a := addr_of_client? h
  have hgone : c ∉ (r.erase a).clients := by
    rw [mem_clients_iff, client?_erase, if_pos hown]
    exact nofun
  rw [List.perm_ext_iff_of_nodup (nodup_clients r) (List.nodup_cons.mpr ⟨hgone, nodup_clients _⟩)]
  intro d
  rw [List.mem_cons, mem_clients_iff, mem_clients_iff, client?_erase]
  by_cases hd : d.addr = a
  · rw [if_pos hd, hd, h]
    simp [eq_comm]
  · have hne : d ≠ c := fun heq => hd (heq ▸ hown)
    simp [hd, hne]

theorem size_erase {r : Roster} {a : Address} {c : Client} (h : r.client? a = some c) :
    (r.erase a).size + 1 = r.size :=
  (perm_erase h).length_eq.symm

/-- A record that is stored in the place of another makes no difference to the size. -/
theorem size_add {r : Roster} {c : Client} (h : (r.client? c.addr).isSome) : (r.add c).size = r.size := by
  have hstored : (r.add c).clients = replaceIn r.clients c := if_pos h
  rw [size, hstored, replaceIn, List.length_map]
  rfl

theorem size_modify (r : Roster) (a : Address) {f : Client → Client} (hf : ∀ c, (f c).addr = c.addr) :
    (r.modify a f).size = r.size := by
  unfold modify
  cases h : r.client? a with
  | none => rfl
  | some c =>
    apply size_add
    rw [hf, addr_of_client? h, h]
    rfl

/-- **A withdrawal takes the client from the roster if it says so,** and none otherwise. -/
theorem size_unset (r : Roster) (a : Address) (s : Source) :
    (r.unset a s).size + (if r.vacatedBy a s then 1 else 0) = r.size := by
  unfold unset
  by_cases hv : r.vacatedBy a s = true
  · obtain ⟨c, hc⟩ : ∃ c, r.client? a = some c := by
      cases hc : r.client? a with
      | none => simp [vacatedBy, hc] at hv
      | some c => exact ⟨c, rfl⟩
    rw [if_pos hv, if_pos hv, size_erase hc]
  · rw [if_neg hv, if_neg hv, Nat.add_zero, size_modify r a fun c => Client.addr_unset c s]

theorem size_unsetAll (r : Roster) (s : Source) (order : List Address) :
    (r.unsetAll s order).size + (r.departures s order).count true = r.size := by
  induction order generalizing r with
  | nil => rfl
  | cons a rest ih =>
    have hrest : ((r.unset a s).unsetAll s rest).size + ((r.unset a s).departures s rest).count true =
        (r.unset a s).size := ih (r.unset a s)
    have hfirst := size_unset r a s
    have hall : r.unsetAll s (a :: rest) = (r.unset a s).unsetAll s rest := rfl
    rw [hall, departures, List.count_cons, beq_true]
    omega

/-- Those that go with a withdrawal everywhere and those that stay are all of them. -/
theorem size_clear (r : Roster) (s : Source) : (r.clear s).size + r.removedByClear s = r.size :=
  Nat.add_sub_of_le (size_clear_le r s)

theorem size_purge (r : Roster) (sources : List Source) :
    (purge r sources).size + (r.removedByPurge sources).sum = r.size := by
  induction sources generalizing r with
  | nil => rfl
  | cons s rest ih =>
    have hrest : (purge (r.clear s) rest).size + ((r.clear s).removedByPurge rest).sum = (r.clear s).size :=
      ih (r.clear s)
    have hfirst := size_clear r s
    have hall : purge r (s :: rest) = purge (r.clear s) rest := rfl
    rw [hall, removedByPurge, List.sum_cons]
    omega

/-! ## Records -/

/-- One withdrawal does to its address what a withdrawal everywhere does to all of them. -/
theorem client?_unset_eq (r : Roster) (a b : Address) (s : Source) :
    (r.unset a s).client? b = if b = a then (r.clear s).client? b else r.client? b := by
  rw [client?_unset, client?_clear]
  split
  · next hb => rw [hb]
  · rfl

/-- **On the way, the addresses that were visited are as they will be, and the others as they were.** -/
theorem client?_unsetAll (r : Roster) (s : Source) {order : List Address} (h : order.Nodup) (b : Address) :
    (r.unsetAll s order).client? b = if b ∈ order then (r.clear s).client? b else r.client? b := by
  induction order generalizing r with
  | nil => simp [unsetAll]
  | cons a rest ih =>
    obtain ⟨ha, hrest⟩ := List.nodup_cons.mp h
    have hall : r.unsetAll s (a :: rest) = (r.unset a s).unsetAll s rest := rfl
    rw [hall, ih (r.unset a s) hrest]
    by_cases hb : b = a
    · -- its turn is over, and it does not come again
      subst hb
      rw [if_neg ha, if_pos List.mem_cons_self, client?_unset_eq, if_pos rfl]
    · have hmem : b ∈ a :: rest ↔ b ∈ rest := by simp [hb]
      have hlater : ((r.unset a s).clear s).client? b = (r.clear s).client? b := by
        rw [client?_clear, client?_clear, client?_unset_eq, if_neg hb]
      simp only [hmem, hlater, client?_unset_eq, if_neg hb]

/-- A source that was withdrawn everywhere is withdrawn again without effect. -/
theorem clear_clear (r : Roster) (s : Source) : (r.clear s).clear s = r.clear s := by
  apply clear_eq_self (occupied_clear r s)
  intro a
  rw [cell?_clear, if_pos rfl]

/-- A client that stays keeps all that it had from other sources. -/
theorem slots_of_client?_clear {r : Roster} {s : Source} {a : Address} {c : Client}
    (h : (r.clear s).client? a = some c) :
    ∃ d, r.client? a = some d ∧ c.addr = d.addr ∧ ∀ t, c.slot? t = if t = s then none else d.slot? t := by
  rw [client?_clear] at h
  obtain ⟨hmap, -⟩ := Option.filter_eq_some_iff.mp h
  obtain ⟨d, hd, rfl⟩ := Option.map_eq_some_iff.mp hmap
  exact ⟨d, hd, Client.addr_unset d s, Client.slot?_unset d s⟩

/-! ## Some sources, one after the other -/

/-- The order in which sources are withdrawn makes no difference to the records. -/
theorem client?_purge_perm (r : Roster) {sources order : List Source} (hne : sources ≠ []) (h : order.Perm sources)
    (a : Address) : (purge r order).client? a = (purge r sources).client? a := by
  have hne' : order ≠ [] := by
    rintro rfl
    exact hne h.nil_eq.symm
  apply client?_eq_of_cells (occupied_purge r hne') (occupied_purge r hne)
  intro b s
  simp only [cell?_purge, h.mem_iff]

/-- A client stays if some other source knows it. -/
theorem isSome_client?_purge_iff (r : Roster) {sources : List Source} (hne : sources ≠ []) (a : Address) :
    ((purge r sources).client? a).isSome ↔ ∃ c, r.client? a = some c ∧ ∃ t, t ∉ sources ∧ c.slot? t ≠ none := by
  rw [isSome_client?_iff (occupied_purge r hne)]
  simp only [cell?_purge]
  constructor
  · rintro ⟨t, ht⟩
    by_cases hmem : t ∈ sources
    · simp [hmem] at ht
    · rw [if_neg hmem] at ht
      obtain ⟨slot, hslot⟩ := Option.isSome_iff_exists.mp ht
      obtain ⟨c, hc, hslot⟩ := Option.bind_eq_some_iff.mp hslot
      exact ⟨c, hc, t, hmem, by simp [hslot]⟩
  · rintro ⟨c, hc, t, hmem, hslot⟩
    refine ⟨t, ?_⟩
    rw [if_neg hmem, cell?, hc]
    exact Option.isSome_iff_ne_none.mpr hslot

/-- **As many clients go with some sources as no other source knows,** vacant records among them. -/
theorem encard_known_only_by (r : Roster) {sources : List Source} (hne : sources ≠ []) :
    {a | ∃ c, r.client? a = some c ∧ ∀ t, t ∉ sources → c.slot? t = none}.encard =
      (r.removedByPurge sources).sum := by
  have hstay : {a | ((purge r sources).client? a).isSome} ⊆ {a | (r.client? a).isSome} := by
    intro a ha
    obtain ⟨c, hc, -⟩ := (isSome_client?_purge_iff r hne a).mp ha
    exact Option.isSome_iff_exists.mpr ⟨c, hc⟩
  have hgo : {a | ∃ c, r.client? a = some c ∧ ∀ t, t ∉ sources → c.slot? t = none} =
      {a | (r.client? a).isSome} \ {a | ((purge r sources).client? a).isSome} := by
    ext a
    simp only [Set.mem_sdiff, Set.mem_ofPred_eq, isSome_client?_purge_iff r hne a]
    cases hc : r.client? a with
    | none => simp
    | some c => simp
  have hsplit := Set.encard_sdiff_add_encard_of_subset hstay
  rw [encard_occupied, encard_occupied, ← size_purge r sources, ← hgo, Nat.add_comm, Nat.cast_add] at hsplit
  exact ENat.add_left_injective_of_ne_top (ENat.natCast_ne_top _) hsplit

/-! ## Everywhere, and client by client -/

/-- **A source is withdrawn everywhere as if from each client, in any order.** In any roster, with vacant records in it
or not: both ways leave the same records, and as many clients go as the single withdrawals say; what stays and what went
make up what was there; a client that stays has lost its slot of the source and nothing else; and doing it again changes
nothing. If several sources are withdrawn, one after the other, their order makes no difference to the records, nor to
the sum of what went: the clients that no other source knows. -/
theorem clear_clientwise (r : Roster) (s : Source) :
    (∀ order : List Address, order.Nodup → (∀ a, a ∈ order ↔ (r.client? a).isSome) →
      (∀ a, (r.unsetAll s order).client? a = (r.clear s).client? a) ∧
        (r.departures s order).count true = r.removedByClear s) ∧
    (r.clear s).size + r.removedByClear s = r.size ∧
    (∀ a c, (r.clear s).client? a = some c →
      ∃ d, r.client? a = some d ∧ c.addr = d.addr ∧ ∀ t, c.slot? t = if t = s then none else d.slot? t) ∧
    ((r.clear s).clear s = r.clear s ∧ (r.clear s).removedByClear s = 0) ∧
    ∀ sources : List Source, sources ≠ [] → ∀ order : List Source, order.Perm sources →
      (∀ a, (purge r order).client? a = (purge r sources).client? a) ∧
        {a | ∃ c, r.client? a = some c ∧ ∀ t, t ∉ sources → c.slot? t = none}.encard =
          (r.removedByPurge order).sum := by
  refine ⟨?_, size_clear r s, fun a c => slots_of_client?_clear, ⟨clear_clear r s, ?_⟩, ?_⟩
  · intro order hnodup horder
    have hclients : ∀ a, (r.unsetAll s order).client? a = (r.clear s).client? a := by
      intro a
      rw [client?_unsetAll r s hnodup]
      split
      · rfl
      · next hmem =>
        -- an address that is not visited has no record
        have hnone : r.client? a = none := by
          rw [← Option.not_isSome_iff_eq_none, ← horder a]
          exact hmem
        rw [client?_clear, hnone]
        rfl
    refine ⟨hclients, ?_⟩
    have hsize : (r.unsetAll s order).size = (r.clear s).size := (perm_clients hclients).length_eq
    have hsingle := size_unsetAll r s order
    have hall := size_clear r s
    omega
  · have hagain := size_clear (r.clear s) s
    rw [clear_clear] at hagain
    omega
  · intro sources hne order horder
    have hne' : order ≠ [] := by
      rintro rfl
      exact hne horder.nil_eq.symm
    refine ⟨client?_purge_perm r hne horder, ?_⟩
    rw [← encard_known_only_by r hne']
    simp only [horder.mem_iff]

/-- Two clients go with one source, or one with each of two: the counts differ, and their sum does not. -/
theorem clear_clientwise_vacant :
    let a : Address := .v4 ⟨192, 0, 2, 10⟩
    let b : Address := .v4 ⟨192, 0, 2, 11⟩
    let r := sampleRoster a b
    [b, a].Nodup ∧ (∀ x, x ∈ [b, a] ↔ (r.client? x).isSome) ∧ r.departures .arp [b, a] = [true, true] ∧
      r.removedByClear .arp = 2 ∧ (∀ x, (r.unsetAll .arp [b, a]).client? x = (r.clear .arp).client? x) ∧
      r.removedByPurge [.arp, .whois] = [2, 0] ∧ r.removedByPurge [.whois, .arp] = [1, 1] ∧
      {x | ∃ c, r.client? x = some c ∧ ∀ t, t ∉ [Source.whois, .arp] → c.slot? t = none}.encard = 2 := by
  intro a b r
  have hnodup : [b, a].Nodup := by decide
  have hall : ∀ x, x ∈ [b, a] ↔ (r.client? x).isSome := by
    intro x
    rw [Option.isSome_iff_ne_none, ne_eq, client?, findIn_eq_none_iff, not_not]
    show x ∈ [b, a] ↔ x ∈ [a, b]
    simp [or_comm]
  obtain ⟨hone, -, -, -, hmany⟩ := clear_clientwise r .arp
  obtain ⟨hclients, hcount⟩ := hone [b, a] hnodup hall
  have hanswers : r.departures .arp [b, a] = [true, true] := by decide
  rw [hanswers] at hcount
  have hcounts : r.removedByPurge [.arp, .whois] = [2, 0] := by decide
  have hgone := (hmany [.whois, .arp] (by decide) [.arp, .whois] (by decide)).2
  rw [hcounts] at hgone
  exact ⟨hnodup, hall, hanswers, hcount.symm, hclients, hcounts, by decide, hgone⟩

end ClientRoster.Roster
