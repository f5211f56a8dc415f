import ClientRoster.Client

/-!
# `ClientRoster.Roster` — the records of all clients

A roster keeps at most one record per address; the type says so. It is described by one view, `Roster.client?`,
and each operation by what it does to that view.

## Contents
- `Roster`, `client?`, `size`, `resolve?`, `visit`.
- `add`, `modify`, `erase`, and `clear` (one source on every client).
- The changes that hints ask for: `setHosts`, `setWhois`, `unset`; the first two create the record that is
  missing, and the last one removes a record that it leaves vacant.
- `client?_add`, `client?_modify`, `client?_erase`, `client?_clear`.
-/

namespace ClientRoster

/-- The records of all clients, at most one per address. -/
structure Roster where
  clients : List Client := []
  nodup_addr : (clients.map Client.addr).Nodup := by simp
  deriving DecidableEq, Repr

namespace Roster

/-- The roster without clients. -/
def empty : Roster := {}

/-! ## Looking -/

/-- The first record of an address in a list. -/
def findIn (clients : List Client) (a : Address) : Option Client :=
  clients.find? fun c => decide (c.addr = a)

/-- The record of an address. -/
def client? (r : Roster) (a : Address) : Option Client := findIn r.clients a

/-- How many clients there are. -/
def size (r : Roster) : Nat := r.clients.length

/-- Are there no clients? -/
def isEmpty (r : Roster) : Bool := r.clients.isEmpty

/-- The strongest source that knows an address, and the name that it gives. -/
def resolve? (r : Roster) (a : Address) : Option (Source × String) :=
  (r.client? a).bind Client.resolve?

/-- Shows the records one by one to a visitor with a state, until the visitor has seen enough (`true`). -/
def visit {σ : Type} (visitor : σ → Client → σ × Bool) (start : σ) (r : Roster) : σ :=
  go start r.clients
where
  go (state : σ) : List Client → σ
    | [] => state
    | c :: rest =>
      let (next, enough) := visitor state c
      if enough then next else go next rest

/-! ## The view of a list of records -/

theorem addr_of_findIn {clients : List Client} {a : Address} {c : Client} (h : findIn clients a = some c) :
    c.addr = a := by
  unfold findIn at h
  exact of_decide_eq_true (List.find?_some (p := fun c : Client => decide (c.addr = a)) h)

theorem findIn_cons (c : Client) (rest : List Client) (a : Address) :
    findIn (c :: rest) a = if c.addr = a then some c else findIn rest a := by
  unfold findIn
  by_cases h : c.addr = a <;> simp [h]

theorem findIn_eq_none_iff {clients : List Client} {a : Address} :
    findIn clients a = none ↔ a ∉ clients.map Client.addr := by
  unfold findIn
  simp

theorem findIn_append (front back : List Client) (a : Address) :
    findIn (front ++ back) a = (findIn front a).or (findIn back a) := by
  unfold findIn
  exact List.find?_append

/-! ## Storing and removing records -/

/-- The list with a record in place of each one of its address. -/
def replaceIn (clients : List Client) (c : Client) : List Client :=
  clients.map fun d => if d.addr = c.addr then c else d

theorem map_addr_replaceIn (clients : List Client) (c : Client) :
    (replaceIn clients c).map Client.addr = clients.map Client.addr := by
  rw [replaceIn, List.map_map]
  apply List.map_congr_left
  intro d _
  by_cases h : d.addr = c.addr <;> simp [h]

theorem findIn_replaceIn (clients : List Client) (c : Client) (a : Address) :
    findIn (replaceIn clients c) a =
      if a = c.addr then (findIn clients a).map fun _ => c else findIn clients a := by
  induction clients with
  | nil => simp [replaceIn, findIn]
  | cons d rest ih =>
    have hcons : replaceIn (d :: rest) c = (if d.addr = c.addr then c else d) :: replaceIn rest c := rfl
    rw [hcons, findIn_cons, findIn_cons, ih]
    by_cases hd : d.addr = c.addr
    · by_cases ha : a = c.addr
      · simp [hd, ha]
      · have ha' : ¬ c.addr = a := fun e => ha e.symm
        simp [hd, ha, ha']
    · by_cases ha : a = c.addr
      · simp [ha, hd]
      · simp [hd, ha]

/-- The list with a record stored: in place of the one of its address, or else at the end. -/
def storeIn (clients : List Client) (c : Client) : List Client :=
  if (findIn clients c.addr).isSome then replaceIn clients c else clients ++ [c]

theorem nodup_addr_storeIn {clients : List Client} (h : (clients.map Client.addr).Nodup) (c : Client) :
    ((storeIn clients c).map Client.addr).Nodup := by
  unfold storeIn
  split
  · rw [map_addr_replaceIn]
    exact h
  · next hnone =>
    rw [Bool.not_eq_true, Option.isSome_eq_false_iff, Option.isNone_iff_eq_none, findIn_eq_none_iff] at hnone
    rw [List.map_append, List.nodup_append]
    refine ⟨h, by simp, ?_⟩
    intro a ha b hb hab
    simp only [List.map_cons, List.map_nil, List.mem_singleton] at hb
    exact hnone (hb ▸ hab ▸ ha)

theorem findIn_storeIn (clients : List Client) (c : Client) (a : Address) :
    findIn (storeIn clients c) a = if a = c.addr then some c else findIn clients a := by
  unfold storeIn
  by_cases h : (findIn clients c.addr).isSome
  · rw [if_pos h, findIn_replaceIn]
    by_cases ha : a = c.addr
    · subst ha
      obtain ⟨d, hd⟩ := Option.isSome_iff_exists.mp h
      simp [hd]
    · simp [ha]
  · rw [if_neg h]
    rw [Bool.not_eq_true, Option.isSome_eq_false_iff, Option.isNone_iff_eq_none] at h
    rw [findIn_append, findIn_cons]
    by_cases ha : a = c.addr
    · subst ha
      simp [h]
    · have ha' : ¬ c.addr = a := fun e => ha e.symm
      simp [ha, ha', findIn]

/-- Stores a record under its own address, in place of the one that was there. -/
def add (r : Roster) (c : Client) : Roster := ⟨storeIn r.clients c, nodup_addr_storeIn r.nodup_addr c⟩

/-- Changes the record of an address; an address without one stays without. -/
def modify (r : Roster) (a : Address) (f : Client → Client) : Roster :=
  match r.client? a with
  | some c => r.add (f c)
  | none => r

/-- Removes the record of an address. -/
def erase (r : Roster) (a : Address) : Roster :=
  ⟨r.clients.filter fun c => !decide (c.addr = a), r.nodup_addr.sublist (List.filter_sublist.map _)⟩

/-- Withdraws one source on every client and removes the clients that are then vacant. -/
def clear (r : Roster) (s : Source) : Roster :=
  ⟨(r.clients.map (·.unset s)).filter (!·.isVacant), by
    refine List.Nodup.sublist (List.filter_sublist.map _) ?_
    rw [List.map_map]
    simpa [Function.comp_def] using r.nodup_addr⟩

/-- How many clients `clear` removes. -/
def removedByClear (r : Roster) (s : Source) : Nat := r.size - (r.clear s).size

/-! ## Recording reports -/

/-- Changes the record of an address, a new one if there is none yet. -/
def upsert (r : Roster) (a : Address) (f : Client → Client) : Except Failure Roster :=
  match r.client? a with
  | some c => .ok (r.add (f c))
  | none => (Client.create? a).map fun c => r.add (f c)

/-- Records host names. A source that lists no host names leaves nothing to store, and the answer is `none`. -/
def setHosts (r : Roster) (a : Address) (s : Source) (hosts : List String) :
    Except Failure (Option Roster) :=
  if s.listsHosts then (r.upsert a (·.setHosts s hosts)).map some else .ok none

/-- Records registration data. -/
def setWhois (r : Roster) (a : Address) (entry : Whois) : Except Failure Roster :=
  r.upsert a (·.setWhois entry)

/-- Does withdrawing a source leave a stored client vacant? -/
def vacatedBy (r : Roster) (a : Address) (s : Source) : Bool :=
  match r.client? a with
  | some c => (c.unset s).isVacant
  | none => false

/-- Withdraws what a source reported about an address, and removes a record that is then vacant. -/
def unset (r : Roster) (a : Address) (s : Source) : Roster :=
  if r.vacatedBy a s then r.erase a else r.modify a (·.unset s)

/-! ## The view after a change -/

@[simp] theorem client?_empty (a : Address) : empty.client? a = none := rfl

theorem addr_of_client? {r : Roster} {a : Address} {c : Client} (h : r.client? a = some c) : c.addr = a :=
  addr_of_findIn h

theorem client?_add (r : Roster) (c : Client) (a : Address) :
    (r.add c).client? a = if a = c.addr then some c else r.client? a :=
  findIn_storeIn r.clients c a

theorem client?_modify (r : Roster) (a b : Address) (f : Client → Client) (hf : ∀ c, (f c).addr = c.addr) :
    (r.modify a f).client? b = if b = a then (r.client? a).map f else r.client? b := by
  unfold modify
  cases h : r.client? a with
  | none =>
    by_cases hb : b = a
    · subst hb
      simp [h]
    · simp [hb]
  | some c => simp [client?_add, hf, addr_of_client? h]

theorem client?_erase (r : Roster) (a b : Address) :
    (r.erase a).client? b = if b = a then none else r.client? b := by
  obtain ⟨clients, hnodup⟩ := r
  simp only [client?, erase]
  clear hnodup
  induction clients with
  | nil => simp [findIn]
  | cons c rest ih =>
    rw [List.filter_cons, findIn_cons]
    by_cases hc : c.addr = a
    · rw [if_neg (by simp [hc]), ih]
      by_cases hb : b = a
      · simp [hb]
      · have hcb : ¬ c.addr = b := fun e => hb (e.symm.trans hc)
        simp [hb, hcb]
    · rw [if_pos (by simp [hc]), findIn_cons, ih]
      by_cases hcb : c.addr = b
      · have hb : ¬ b = a := fun e => hc (hcb.trans e)
        simp [hcb, hb]
      · simp [hcb]

/-- After a clear each client has lost one slot, and those with nothing left are gone. -/
theorem client?_clear (r : Roster) (s : Source) (a : Address) :
    (r.clear s).client? a = ((r.client? a).map (·.unset s)).filter (!·.isVacant) := by
  obtain ⟨clients, hnodup⟩ := r
  simp only [client?, clear]
  induction clients with
  | nil => simp [findIn]
  | cons c rest ih =>
    rw [List.map_cons, List.nodup_cons] at hnodup
    rw [List.map_cons, List.filter_cons, findIn_cons]
    by_cases hc : c.addr = a
    · have hrest : findIn rest a = none := findIn_eq_none_iff.mpr (hc ▸ hnodup.1)
      by_cases hv : (c.unset s).isVacant
      · rw [if_neg (by simp [hv]), ih hnodup.2]
        simp [Option.filter, hc, hv, hrest]
      · rw [if_pos (by simpa using hv), findIn_cons]
        simp [Option.filter, hc, hv]
    · by_cases hv : (c.unset s).isVacant
      · rw [if_neg (by simp [hv]), ih hnodup.2]
        simp [hc]
      · rw [if_pos (by simpa using hv), findIn_cons, ih hnodup.2]
        simp [hc]

end Roster

end ClientRoster
