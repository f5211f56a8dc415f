import ClientRoster.Proofs.Roster.Change

/-!
# `ClientRoster.Proofs.Roster.Filing` — records under the addresses that they were put under

A roster finds a record by the address that the record itself names. Whoever puts records into a table puts each one
under some address, and edits it there afterwards; nothing about a table says that this is the record's own address, or
that the record was built at all. A *filing* is such a table. The changes that can be asked of a roster keep it in order
nevertheless, and a roster that is changed in the same way shows the same records.

## Contents
- `Filing`, `Filing.put`, `Filing.upsert`, `Filing.perform`, `Filing.edit`: a table, and the changes to it.
- `Filing.Kept`: every record is built and lies under its own address; `kept_perform`, `kept_edit`.
- **`client?_perform`, `client?_editAll`**: the records of a roster are those of a filing with the same changes.
-/

namespace ClientRoster

/-- The roster with the record of an address edited in its place. -/
def Roster.editAll (r : Roster) (a : Address) (edits : List Client.Edit) : Roster := r.modify a (·.editAll edits)

/-- Records under addresses, each where it was put. -/
abbrev Filing := Address → Option Client

namespace Filing

def empty : Filing := fun _ => none

/-- Puts a record under an address, or takes away what lies there. -/
def put (f : Filing) (a : Address) (c? : Option Client) : Filing := fun b => if b = a then c? else f b

/-- Changes what lies under an address in its place. Where nothing lies, a new record is put under the address that it
names when it has been changed. -/
def upsert (f : Filing) (a : Address) (change : Client → Client) : Filing :=
  match f a with
  | some c => f.put a (some (change c))
  | none => match Client.create? a with
    | .ok c => f.put (change c).addr (some (change c))
    | .error _ => f

/-- What is left of a record without a source, if anything is. -/
def withdraw (s : Source) (c? : Option Client) : Option Client := (c?.map (·.unset s)).filter (!·.isVacant)

/-- The filing after a change was tried. -/
def perform (f : Filing) : Change → Filing
  | .setHosts a s hosts => if s.listsHosts then f.upsert a (·.setHosts s hosts) else f
  | .setWhois a entry => f.upsert a (·.setWhois entry)
  | .unset a s => f.put a (withdraw s (f a))
  | .erase a => f.put a none
  | .clear s => fun a => withdraw s (f a)
  | .add c => f.put c.addr (some c)

/-- The filing with the record under an address edited in its place. -/
def editAll (f : Filing) (a : Address) (edits : List Client.Edit) : Filing := f.put a ((f a).map (·.editAll edits))

/-! ## In order -/

/-- Every record lies under its own address and was built. -/
structure Kept (f : Filing) : Prop where
  own : ∀ a c, f a = some c → c.addr = a
  built : ∀ a c, f a = some c → c.Built

theorem kept_empty : empty.Kept where
  own := by
    intro a c h
    cases h
  built := by
    intro a c h
    cases h

variable {f : Filing}

/-- What is put under an address may be nothing, or a record that was built for it. -/
theorem kept_put (h : f.Kept) {a : Address} {c? : Option Client} (hc : ∀ c, c? = some c → c.addr = a ∧ c.Built) :
    (f.put a c?).Kept := by
  constructor
  · intro b d hd
    by_cases hb : b = a
    · rw [put, if_pos hb] at hd
      exact hb ▸ (hc d hd).1
    · rw [put, if_neg hb] at hd
      exact h.own b d hd
  · intro b d hd
    by_cases hb : b = a
    · rw [put, if_pos hb] at hd
      exact (hc d hd).2
    · rw [put, if_neg hb] at hd
      exact h.built b d hd

theorem kept_upsert (h : f.Kept) (a : Address) (e : Client.Edit) : (f.upsert a (·.edit e)).Kept := by
  unfold upsert
  cases hc : f a with
  | some c =>
    apply kept_put h
    intro d hd
    obtain rfl : c.edit e = d := Option.some.inj hd
    exact ⟨(Client.addr_edit c e).trans (h.own a c hc), (h.built a c hc).edit e⟩
  | none =>
    cases hnew : Client.create? a with
    | error failure => exact h
    | ok c =>
      apply kept_put h
      intro d hd
      obtain rfl : c.edit e = d := Option.some.inj hd
      exact ⟨rfl, (Client.Built.new hnew).edit e⟩

/-- What a withdrawal leaves under an address is what lay there, without a source. -/
theorem kept_withdraw (h : f.Kept) (a : Address) (s : Source) {d : Client} (hd : withdraw s (f a) = some d) :
    d.addr = a ∧ d.Built := by
  obtain ⟨hmap, -⟩ := Option.filter_eq_some_iff.mp hd
  obtain ⟨c, hc, rfl⟩ := Option.map_eq_some_iff.mp hmap
  exact ⟨(Client.addr_unset c s).trans (h.own a c hc), (h.built a c hc).edit (.unset s)⟩

/-- **Changes that may be asked for keep every record under its own address.** -/
theorem kept_perform (h : f.Kept) {change : Change} (hc : change.Lawful) : (f.perform change).Kept := by
  cases change with
  | setHosts a s hosts =>
    show Kept (if s.listsHosts then f.upsert a (·.edit (.setHosts s hosts)) else f)
    split
    · exact kept_upsert h a (.setHosts s hosts)
    · exact h
  | setWhois a entry => exact kept_upsert h a (.setWhois entry)
  | unset a s =>
    apply kept_put h
    intro d hd
    exact kept_withdraw h a s hd
  | erase a =>
    apply kept_put h
    intro d hd
    cases hd
  | clear s =>
    constructor
    · intro a d hd
      exact (kept_withdraw h a s hd).1
    · intro a d hd
      exact (kept_withdraw h a s hd).2
  | add c =>
    apply kept_put h
    intro d hd
    obtain rfl : c = d := Option.some.inj hd
    exact ⟨rfl, hc⟩

/-- **An edit in place moves no record.** -/
theorem kept_editAll (h : f.Kept) (a : Address) (edits : List Client.Edit) : (f.editAll a edits).Kept := by
  apply kept_put h
  intro d hd
  obtain ⟨c, hc, rfl⟩ := Option.map_eq_some_iff.mp hd
  exact ⟨(Client.addr_editAll c edits).trans (h.own a c hc), (h.built a c hc).editAll edits⟩

end Filing

/-! ## Rosters and filings -/

namespace Roster

theorem client?_add_eq_put (r : Roster) {c : Client} {a : Address} (h : c.addr = a) :
    (r.add c).client? = Filing.put r.client? a (some c) := by
  funext b
  rw [client?_add, h]
  rfl

/-- A change on behalf of an address does to a roster what it does to a filing. -/
theorem client?_upsert_eq (r : Roster) (a : Address) {change : Client → Client} (h : ∀ c, (change c).addr = c.addr) :
    (match r.upsert a change with
      | .ok changed => changed.client?
      | .error _ => r.client?) = Filing.upsert r.client? a change := by
  unfold upsert Filing.upsert
  cases hc : r.client? a with
  | some c => exact client?_add_eq_put r ((h c).trans (addr_of_client? hc))
  | none =>
    cases hnew : Client.create? a with
    | error failure => rfl
    | ok c => exact client?_add_eq_put r rfl

/-- **The records of a roster are those of a filing with the same changes.** -/
theorem client?_perform (r : Roster) (change : Change) :
    (r.perform change).client? = Filing.perform r.client? change := by
  cases change with
  | setHosts a s hosts =>
    cases hs : s.listsHosts with
    | false => simp [perform, attempt, setHosts, Filing.perform, hs]
    | true =>
      have hfiling : Filing.perform r.client? (.setHosts a s hosts) =
          Filing.upsert r.client? a (·.setHosts s hosts) := by
        rw [Filing.perform, if_pos hs]
      rw [hfiling, ← client?_upsert_eq r a fun c => Client.addr_setHosts c s hosts, perform, attempt, setHosts,
        if_pos hs]
      cases r.upsert a (·.setHosts s hosts) <;> rfl
  | setWhois a entry =>
    rw [Filing.perform, ← client?_upsert_eq r a fun c => Client.addr_setWhois c entry, perform, attempt, setWhois]
    cases r.upsert a (·.setWhois entry) <;> rfl
  | unset a s =>
    funext b
    exact client?_unset r a b s
  | erase a =>
    funext b
    exact client?_erase r a b
  | clear s =>
    funext a
    exact client?_clear r s a
  | add c => exact client?_add_eq_put r rfl

theorem client?_editAll (r : Roster) (a : Address) (edits : List Client.Edit) :
    (r.editAll a edits).client? = Filing.editAll r.client? a edits := by
  funext b
  exact client?_modify r a b _ fun c => Client.addr_editAll c edits

end Roster

end ClientRoster
