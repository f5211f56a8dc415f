import ClientRoster.Client

/-!
# `ClientRoster.Proofs.Client.Edit` — the records that can be built

A record is made for an address and then changed, one change at a time. Nothing else makes a record, so what holds
of a new record and survives each change holds of all of them.

## Contents
- `Client.create?_eq_ok_iff`: which addresses get a record.
- `Client.Edit`, `Client.edit`, `Client.editAll`: changes to one record.
- `Client.Built`, and `Client.Built.addr_specified`, `Client.Built.hosts?_ne`.
- `Client.resolve?_eq_some_iff`, `Client.resolve?_eq_none_iff`: resolution through the slots alone.
-/

namespace ClientRoster.Client

theorem create?_eq_ok_iff {a : Address} {c : Client} :
    create? a = .ok c ↔ a.isUnspecified = false ∧ c = vacant a := by
  unfold create?
  cases h : a.isUnspecified
  · simp [eq_comm]
  · simp

/-! ## Changes to one record -/

/-- A change to one record. -/
inductive Edit
  | setHosts (source : Source) (hosts : List String)
  | setWhois (entry : Whois)
  | unset (source : Source)
  deriving DecidableEq, Repr

/-- The record after a change. -/
def edit (c : Client) : Edit → Client
  | .setHosts s hosts => c.setHosts s hosts
  | .setWhois entry => c.setWhois entry
  | .unset s => c.unset s

/-- A record after some changes in its place. -/
def editAll (c : Client) (edits : List Edit) : Client := edits.foldl edit c

@[simp] theorem addr_edit (c : Client) (e : Edit) : (c.edit e).addr = c.addr := by
  cases e <;> simp [edit]

@[simp] theorem addr_editAll (c : Client) (edits : List Edit) : (c.editAll edits).addr = c.addr := by
  induction edits generalizing c with
  | nil => rfl
  | cons e rest ih => exact (ih (c.edit e)).trans (addr_edit c e)

/-- The records that can be built: a new one, changed any number of times. -/
inductive Built : Client → Prop
  | new {a : Address} {c : Client} (h : create? a = .ok c) : Built c
  | edit {c : Client} (h : Built c) (e : Edit) : Built (c.edit e)

theorem Built.editAll {c : Client} (h : c.Built) (edits : List Edit) : (c.editAll edits).Built := by
  induction edits generalizing c with
  | nil => exact h
  | cons e rest ih => exact ih (h.edit e)

/-- No record is built for an address that stands for no address. -/
theorem Built.addr_specified {c : Client} (h : c.Built) : c.addr.isUnspecified = false := by
  induction h with
  | new h =>
    obtain ⟨hspec, rfl⟩ := create?_eq_ok_iff.mp h
    exact hspec
  | edit _ e ih =>
    rw [addr_edit]
    exact ih

theorem hosts?_setHosts (c : Client) (s t : Source) (hosts : List String) :
    (c.setHosts s hosts).hosts? t = if t = s ∧ s.listsHosts then some (storedHosts hosts) else c.hosts? t := by
  cases s <;> cases t <;> rfl

theorem hosts?_unset (c : Client) (s t : Source) : (c.unset s).hosts? t = if t = s then none else c.hosts? t := by
  cases s <;> cases t <;> rfl

/-- **No slot of a record that was built holds a single empty name.** -/
theorem Built.hosts?_ne {c : Client} (h : c.Built) (s : Source) : c.hosts? s ≠ some [""] := by
  induction h with
  | new h =>
    obtain ⟨-, rfl⟩ := create?_eq_ok_iff.mp h
    cases s <;> exact nofun
  | @edit c _ e ih =>
    cases e with
    | setHosts t hosts =>
      rw [Client.edit, hosts?_setHosts]
      split
      · intro heq
        exact storedHosts_ne hosts (Option.some.inj heq)
      · exact ih
    | setWhois entry => exact ih
    | unset t =>
      rw [Client.edit, hosts?_unset]
      split
      · exact nofun
      · exact ih

/-! ## Resolution -/

theorem slot?_persistent (c : Client) : c.slot? .persistent = none := rfl

/-- The order in which resolution asks is strictly descending. -/
theorem byStrength_descending : Source.byStrength.Pairwise fun s t => t < s := by
  decide

/-- Resolution asks for each source of an occupied slot. -/
theorem mem_byStrength_of_slot {c : Client} {s : Source} (h : (c.slot? s).isSome) : s ∈ Source.byStrength := by
  have hne : s ≠ .persistent := by
    rintro rfl
    simp [slot?_persistent] at h
  exact Source.mem_byStrength.mpr hne

/-- A client goes by a slot that is occupied, and no stronger one is. -/
theorem slot?_of_resolve? {c : Client} {s : Source} {name : String} (h : c.resolve? = some (s, name)) :
    ∃ slot, c.slot? s = some slot ∧ slot.firstName = name ∧ ∀ t, (c.slot? t).isSome → t ≤ s := by
  obtain ⟨before, u, after, hsplit, hu, hbefore⟩ := List.findSome?_eq_some_iff.mp h
  obtain ⟨slot, hslot, heq⟩ := Option.map_eq_some_iff.mp hu
  obtain ⟨rfl, rfl⟩ := Prod.mk.inj heq
  refine ⟨slot, hslot, rfl, ?_⟩
  intro t ht
  have hmem := mem_byStrength_of_slot ht
  have hdesc := byStrength_descending
  rw [hsplit] at hmem hdesc
  rcases List.mem_append.mp hmem with hb | ha
  · -- a slot that resolution passed over was vacant
    have hvacant := hbefore t hb
    rw [Option.map_eq_none_iff] at hvacant
    simp [hvacant] at ht
  · rcases List.mem_cons.mp ha with rfl | ha
    · exact Nat.le_refl _
    · exact Nat.le_of_lt (List.rel_of_pairwise_cons (List.pairwise_append.mp hdesc).2.1 ha)

/-- **A client goes by its strongest occupied slot.** -/
theorem resolve?_eq_some_iff {c : Client} {s : Source} {name : String} :
    c.resolve? = some (s, name) ↔
      ∃ slot, c.slot? s = some slot ∧ slot.firstName = name ∧ ∀ t, (c.slot? t).isSome → t ≤ s := by
  constructor
  · exact slot?_of_resolve?
  · rintro ⟨slot, hslot, rfl, hmax⟩
    have hsome : (c.slot? s).isSome := by simp [hslot]
    cases hres : c.resolve? with
    | none =>
      have hnone := List.findSome?_eq_none_iff.mp hres s (mem_byStrength_of_slot hsome)
      simp [hslot] at hnone
    | some winner =>
      -- the winner is as strong as this source, and no two sources are of one strength
      obtain ⟨u, name⟩ := winner
      obtain ⟨slot', hslot', rfl, hmax'⟩ := slot?_of_resolve? hres
      have hsu : s.rank = u.rank := Nat.le_antisymm (hmax' s hsome) (hmax u (by simp [hslot']))
      obtain rfl := Source.rank_injective hsu
      obtain rfl := Option.some.inj (hslot.symm.trans hslot')
      rfl

theorem resolve?_eq_none_iff {c : Client} : c.resolve? = none ↔ ∀ s, c.slot? s = none := by
  unfold resolve?
  rw [List.findSome?_eq_none_iff]
  constructor
  · intro h s
    by_cases hs : s = .persistent
    · exact hs ▸ slot?_persistent c
    · exact Option.map_eq_none_iff.mp (h s (Source.mem_byStrength.mpr hs))
  · intro h s _
    simp [h s]

end ClientRoster.Client
