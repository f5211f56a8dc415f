import ClientRoster.Proofs.Roster.Cell
import ClientRoster.Roster.Desk

/-!
# `ClientRoster.Proofs.Roster.LastWrite` — a roster holds what was written last

A roster may be changed through many handles, over any length of time. What it holds in the end is a matter of cells
alone: each cell holds what the last change that reached it left there, and the records and the names of the clients
follow from the cells.

## Contents
- `Roster.lastWrite`: the content of a cell, from the list of changes alone.
- **`Roster.content_performAll_empty`**: what a roster holds after some changes.
- `Desk.Request`, `Desk.serve`, `Desk.serveAll`: changes, shared handles and fresh rosters at a desk.
- `Desk.changesAt`: the changes that reach the roster at one place, through whichever handle.
- **`lastWrite_serveAll`**: what the roster behind any handle holds.
-/

namespace ClientRoster

namespace Roster

/-- What the last of some changes to write a cell leaves there: nothing if it emptied the cell, or if there is none.
Changes that do not succeed write no cell. -/
def lastWrite (changes : List Change) (a : Address) (s : Source) : Option Slot :=
  ((changes.filter Change.succeeds).reverse.findSome? (Change.leaves? a s)).join

theorem named_performAll {r : Roster} (h : r.Named) {changes : List Change} (hc : ∀ c ∈ changes, c.Lawful) :
    (r.performAll changes).Named := by
  induction changes generalizing r with
  | nil => exact h
  | cons change rest ih =>
    rw [List.forall_mem_cons] at hc
    exact ih (named_perform h hc.1) hc.2

theorem occupied_performAll {r : Roster} (hn : r.Named) (h : r.Occupied) {changes : List Change}
    (hc : ∀ c ∈ changes, c.Lawful) (ho : ∀ c ∈ changes, c.Occupying) : (r.performAll changes).Occupied := by
  induction changes generalizing r with
  | nil => exact h
  | cons change rest ih =>
    rw [List.forall_mem_cons] at hc ho
    exact ih (named_perform hn hc.1) (occupied_perform hn h ho.1) hc.2 ho.2

/-- A cell that some changes do not reach keeps what it held before them. -/
theorem cell?_performAll {r : Roster} (h : r.Named) {changes : List Change} (hc : ∀ c ∈ changes, c.Lawful)
    (a : Address) (s : Source) :
    (r.performAll changes).cell? a s =
      ((changes.filter Change.succeeds).reverse.findSome? (Change.leaves? a s)).getD (r.cell? a s) := by
  induction changes generalizing r with
  | nil => rfl
  | cons change rest ih =>
    rw [List.forall_mem_cons] at hc
    have hrest : (r.performAll (change :: rest)).cell? a s = ((r.perform change).performAll rest).cell? a s := rfl
    rw [hrest, ih (named_perform h hc.1) hc.2, cell?_perform h]
    -- the first change is the last to be asked, so it counts only where no later one reaches the cell
    by_cases hs : change.succeeds = true
    · rw [if_pos hs, List.filter_cons_of_pos hs, List.reverse_cons, List.findSome?_append,
        List.findSome?_singleton, Option.getD_or]
    · rw [if_neg hs, List.filter_cons_of_neg hs]

/-- **From the empty roster on, each cell holds what was written last.** -/
theorem cell?_performAll_empty {changes : List Change} (hc : ∀ c ∈ changes, c.Lawful) (a : Address)
    (s : Source) : (empty.performAll changes).cell? a s = lastWrite changes a s := by
  rw [cell?_performAll named_empty hc, lastWrite]
  cases (changes.filter Change.succeeds).reverse.findSome? (Change.leaves? a s) <;> rfl

/-- Changes may be made and leave no vacant record if the records that they add are built and not vacant. -/
theorem lawful_of_adds {changes : List Change} (hadd : ∀ c, .add c ∈ changes → c.Built ∧ c.isVacant = false) :
    (∀ change ∈ changes, change.Lawful) ∧ ∀ change ∈ changes, change.Occupying := by
  constructor
  · intro change hc
    cases change with
    | add c => exact (hadd c hc).1
    | _ => trivial
  · intro change hc
    cases change with
    | add c => exact (hadd c hc).2
    | _ => trivial

/-- **From the empty roster on, the cells tell everything:** which addresses have a record, what a client goes by, and
which changes would succeed next. -/
theorem content_performAll_empty {changes : List Change} (hlawful : ∀ c ∈ changes, c.Lawful)
    (hoccupying : ∀ c ∈ changes, c.Occupying) :
    let r := empty.performAll changes
    let content := lastWrite changes
    (∀ a s, r.cell? a s = content a s) ∧
      (∀ a, (r.client? a).isSome ↔ ∃ s, (content a s).isSome) ∧
      (∀ a s name, r.resolve? a = some (s, name) ↔
        ∃ slot, content a s = some slot ∧ slot.firstName = name ∧ ∀ t, (content a t).isSome → t ≤ s) ∧
      (∀ a, r.resolve? a = none ↔ ∀ s, content a s = none) ∧
      ∀ change, (∃ changed, r.attempt change = .ok (some changed)) ↔ change.succeeds = true := by
  intro r content
  have hcell : ∀ a s, r.cell? a s = content a s := cell?_performAll_empty hlawful
  have hnamed : r.Named := named_performAll named_empty hlawful
  have hoccupied : r.Occupied := occupied_performAll named_empty occupied_empty hlawful hoccupying
  refine ⟨hcell, ?_, ?_, ?_, attempt_eq_ok_some_iff hnamed⟩
  · intro a
    simp only [← hcell]
    exact isSome_client?_iff hoccupied a
  · intro a s name
    simp only [← hcell]
    exact resolve?_eq_some_iff
  · intro a
    simp only [← hcell]
    exact resolve?_eq_none_iff

end Roster

namespace Desk

/-! ## Requests at a desk -/

/-- What can be asked at a desk. -/
inductive Request
  /-- A change through a handle. -/
  | change (handle : Nat) (change : Change)
  /-- A second handle on the roster of a handle. -/
  | share (handle : Nat)
  /-- A handle on a new roster. -/
  | fresh
  deriving DecidableEq, Repr

/-- The desk after a request; a handle that nobody gave out changes nothing. -/
def serve (d : Desk) : Request → Desk
  | .change h change => match d.roster? h with
    | some r => d.put h (r.perform change)
    | none => d
  | .share h => match d.share? h with
    | some (shared, _) => shared
    | none => d
  | .fresh => d.fresh.1

/-- The desk after some requests. -/
def serveAll (d : Desk) (requests : List Request) : Desk := requests.foldl serve d

/-- The change that a request makes to the roster at a place. -/
def changeAt? (place : Nat) (d : Desk) : Request → Option Change
  | .change h change => if d.handles[h]? = some place then some change else none
  | .share _ | .fresh => none

/-- The changes that some requests make to the roster at a place, through whichever handle. -/
def changesAt (place : Nat) (d : Desk) : List Request → List Change
  | [] => []
  | request :: rest => (d.changeAt? place request).toList ++ changesAt place (d.serve request) rest

theorem mem_changesAt {place : Nat} {d : Desk} {requests : List Request} {change : Change}
    (h : change ∈ d.changesAt place requests) : ∃ handle, Request.change handle change ∈ requests := by
  induction requests generalizing d with
  | nil => simp [changesAt] at h
  | cons request rest ih =>
    rw [changesAt, List.mem_append] at h
    rcases h with h | h
    · cases request with
      | change handle asked =>
        simp only [changeAt?] at h
        split at h
        · simp only [Option.toList_some, List.mem_singleton] at h
          exact ⟨handle, h ▸ List.mem_cons_self⟩
        · simp at h
      | share handle => simp [changeAt?] at h
      | fresh => simp [changeAt?] at h
    · obtain ⟨handle, hmem⟩ := ih h
      exact ⟨handle, List.mem_cons_of_mem _ hmem⟩

/-! ## Rosters at their places -/

/-- Every handle stands for a roster. -/
def Seated (d : Desk) : Prop := ∀ place ∈ d.handles, place < d.rosters.length

/-- The roster at a place; where there is none yet, it will be an empty one. -/
def rosterAt (d : Desk) (place : Nat) : Roster := d.rosters[place]?.getD .empty

theorem Seated.roster?_eq {d : Desk} (hd : d.Seated) {h place : Nat} (hp : d.handles[h]? = some place) :
    d.roster? h = some (d.rosterAt place) := by
  have hlt := hd place (List.mem_of_getElem? hp)
  simp [roster?, rosterAt, hp, hlt]

theorem serve_change {d : Desk} (hd : d.Seated) {h place : Nat} (hp : d.handles[h]? = some place)
    (change : Change) :
    d.serve (.change h change) = { d with rosters := d.rosters.set place ((d.rosterAt place).perform change) } := by
  simp [serve, hd.roster?_eq hp, put, hp]

theorem serve_share {d : Desk} {h place : Nat} (hp : d.handles[h]? = some place) :
    d.serve (.share h) = { d with handles := d.handles ++ [place] } := by
  simp [serve, share?, hp]

theorem serve_fresh (d : Desk) :
    d.serve .fresh = ⟨d.rosters ++ [.empty], d.handles ++ [d.rosters.length]⟩ := rfl

/-- A handle that nobody gave out changes nothing. -/
theorem serve_of_no_handle {d : Desk} {h : Nat} (hp : d.handles[h]? = none) :
    (∀ change, d.serve (.change h change) = d) ∧ d.serve (.share h) = d := by
  simp [serve, roster?, share?, hp]

theorem Seated.serve {d : Desk} (hd : d.Seated) (request : Request) : (d.serve request).Seated := by
  cases request with
  | change h change =>
    cases hp : d.handles[h]? with
    | none =>
      rw [(serve_of_no_handle hp).1]
      exact hd
    | some place =>
      rw [serve_change hd hp]
      intro other ho
      rw [List.length_set]
      exact hd other ho
  | share h =>
    cases hp : d.handles[h]? with
    | none =>
      rw [(serve_of_no_handle hp).2]
      exact hd
    | some place =>
      rw [serve_share hp]
      intro other ho
      rcases List.mem_append.mp ho with ho | ho
      · exact hd other ho
      · -- the new handle stands where the shared one stands
        obtain rfl := List.mem_singleton.mp ho
        exact hd other (List.mem_of_getElem? hp)
  | fresh =>
    rw [serve_fresh]
    intro place hp
    simp only [List.length_append, List.length_singleton]
    rcases List.mem_append.mp hp with hp | hp
    · exact Nat.lt_succ_of_lt (hd place hp)
    · obtain rfl := List.mem_singleton.mp hp
      exact Nat.lt_succ_self _

/-- A request changes the roster at one place at most. -/
theorem rosterAt_serve {d : Desk} (hd : d.Seated) (request : Request) (place : Nat) :
    (d.serve request).rosterAt place = (d.rosterAt place).performAll (d.changeAt? place request).toList := by
  cases request with
  | change h change =>
    cases hp : d.handles[h]? with
    | none =>
      rw [(serve_of_no_handle hp).1]
      simp [changeAt?, hp, Roster.performAll]
    | some other =>
      have hlt := hd other (List.mem_of_getElem? hp)
      rw [serve_change hd hp]
      simp only [changeAt?, hp, Option.some.injEq]
      by_cases ho : other = place
      · subst ho
        simp [rosterAt, hlt, Roster.performAll]
      · simp [rosterAt, ho, Roster.performAll]
  | share h =>
    cases hp : d.handles[h]? with
    | none =>
      rw [(serve_of_no_handle hp).2]
      rfl
    | some other =>
      rw [serve_share hp]
      rfl
  | fresh =>
    rw [serve_fresh]
    simp only [rosterAt, changeAt?, Option.toList_none, Roster.performAll, List.foldl_nil]
    -- a place without a roster counts as an empty one, so taking it changes nothing
    by_cases hlt : place < d.rosters.length
    · rw [List.getElem?_append_left hlt]
    · rw [List.getElem?_append_right (Nat.le_of_not_lt hlt), List.getElem?_eq_none (Nat.le_of_not_lt hlt)]
      cases place - d.rosters.length <;> rfl

theorem Seated.serveAll {d : Desk} (hd : d.Seated) (requests : List Request) : (d.serveAll requests).Seated := by
  induction requests generalizing d with
  | nil => exact hd
  | cons request rest ih => exact ih (hd.serve request)

/-- **The roster at a place sees exactly the changes of that place, in their order.** -/
theorem rosterAt_serveAll {d : Desk} (hd : d.Seated) (requests : List Request) (place : Nat) :
    (d.serveAll requests).rosterAt place = (d.rosterAt place).performAll (d.changesAt place requests) := by
  induction requests generalizing d with
  | nil => rfl
  | cons request rest ih =>
    have hstep : (d.serveAll (request :: rest)).rosterAt place = ((d.serve request).serveAll rest).rosterAt place :=
      rfl
    rw [hstep, ih (hd.serve request), rosterAt_serve hd, changesAt]
    simp only [Roster.performAll, List.foldl_append]

theorem seated_single (r : Roster) : (single r).Seated := by
  intro place hp
  simp only [single, List.mem_singleton] at hp ⊢
  simp [hp]

/-! ## What a roster holds -/

/-- **A roster behind any handle holds what was written last.** Whatever was asked at the desk so far and through
whichever handles, as long as only built records with something in them were added: each cell holds what the last
change that succeeded and reached it left there; an address has a record exactly when one of its cells is occupied;
it goes by the strongest of them; and whether a change succeeds can be told from the change alone. -/
theorem lastWrite_serveAll (requests : List Request)
    (hadd : ∀ h c, .change h (.add c) ∈ requests → c.Built ∧ c.isVacant = false) {h place : Nat}
    (hplace : ((single .empty).serveAll requests).handles[h]? = some place) :
    ∃ r, ((single .empty).serveAll requests).roster? h = some r ∧
      let content := Roster.lastWrite ((single .empty).changesAt place requests)
      (∀ a s, r.cell? a s = content a s) ∧
      (∀ a, (r.client? a).isSome ↔ ∃ s, (content a s).isSome) ∧
      (∀ a s name, r.resolve? a = some (s, name) ↔
        ∃ slot, content a s = some slot ∧ slot.firstName = name ∧ ∀ t, (content a t).isSome → t ≤ s) ∧
      (∀ a, r.resolve? a = none ↔ ∀ s, content a s = none) ∧
      ∀ change, (∃ changed, r.attempt change = .ok (some changed)) ↔ change.succeeds = true := by
  have hseated := (seated_single .empty).serveAll requests
  have hstart : (single .empty).rosterAt place = .empty := by
    cases place <;> rfl
  have hbuilt : ∀ c, .add c ∈ (single .empty).changesAt place requests → c.Built ∧ c.isVacant = false := by
    intro c hc
    obtain ⟨handle, hmem⟩ := mem_changesAt hc
    exact hadd handle c hmem
  obtain ⟨hlawful, hoccupying⟩ := Roster.lawful_of_adds hbuilt
  refine ⟨_, hseated.roster?_eq hplace, ?_⟩
  -- whatever else was asked at the desk, this roster saw the changes of its place alone
  rw [rosterAt_serveAll (seated_single .empty), hstart]
  exact Roster.content_performAll_empty hlawful hoccupying

/-- Two clients, changed through two handles on one roster, while a third handle stands for another roster. -/
def sampleRequests (a b : Address) : List Request := [
  .share 0, .fresh,
  .change 0 (.setHosts a .dhcp ["laptop"]),
  .change 1 (.setHosts a .arp [""]),
  .change 2 (.setHosts a .hostsFile ["elsewhere"]),
  .change 1 (.setHosts a .whois ["ignored"]),
  .change 0 (.unset a .dhcp),
  .change 1 (.setWhois b {}),
  .change 0 (.add ((Client.vacant b).setHosts .rdns ["nas", "printer"])),
  .change 1 (.clear .dhcp)]

theorem lastWrite_serveAll_two_handles :
    let a : Address := .v4 ⟨192, 0, 2, 10⟩
    let b : Address := .v4 ⟨192, 0, 2, 11⟩
    (∀ h c, .change h (.add c) ∈ sampleRequests a b → c.Built ∧ c.isVacant = false) ∧
      ((single .empty).serveAll (sampleRequests a b)).handles[1]? = some 0 ∧
      ∃ r, ((single .empty).serveAll (sampleRequests a b)).roster? 1 = some r ∧
        r.cell? a .arp = some (.names []) ∧ r.cell? a .dhcp = none ∧ r.cell? b .whois = none ∧
        r.resolve? a = some (.arp, "") ∧ r.resolve? b = some (.rdns, "nas") := by
  intro a b
  have hadd : ∀ h c, .change h (.add c) ∈ sampleRequests a b → c.Built ∧ c.isVacant = false := by
    intro h c hmem
    simp only [sampleRequests, List.mem_cons, Request.change.injEq, Change.add.injEq, reduceCtorEq, and_false,
      false_or, or_false, List.not_mem_nil] at hmem
    obtain ⟨-, rfl⟩ := hmem
    exact ⟨.edit (.new (a := b) rfl) (.setHosts .rdns ["nas", "printer"]), rfl⟩
  have hplace : ((single .empty).serveAll (sampleRequests a b)).handles[1]? = some 0 := by decide
  obtain ⟨r, hr, hcell, -, hname, -⟩ := lastWrite_serveAll (sampleRequests a b) hadd hplace
  refine ⟨hadd, hplace, r, hr, ?_, ?_, ?_, ?_, ?_⟩
  · rw [hcell]
    decide
  · rw [hcell]
    decide
  · rw [hcell]
    decide
  · refine (hname a .arp "").mpr ⟨.names [], by decide, by decide, ?_⟩
    intro t
    cases t <;> decide
  · refine (hname b .rdns "nas").mpr ⟨.names ["nas", "printer"], by decide, by decide, ?_⟩
    intro t
    cases t <;> decide

end Desk

end ClientRoster
