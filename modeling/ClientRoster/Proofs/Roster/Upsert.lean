import ClientRoster.Proofs.Roster.LastWrite

/-!
# `ClientRoster.Proofs.Roster.Upsert` — reports are recorded whole or not at all

A report is recorded in the record of its address, and a record that is missing is made for it. Three things can come of
it: the source has nothing that could be recorded, the address stands for none, or the report is recorded. Which of them
it is follows from the report alone. The roster itself looks at the address only when it makes a record; that it need
not look otherwise rests on what came before, for no request leaves a record of an address that stands for none.

## Contents
- `Roster.DiffersIn`: one slot of one client is another.
- `Desk.Outcome`, and `outcome_of_attempt`: what comes of a report, from what the roster answers.
- **`outcome_serveAll`**: host names and registration data, through any handle and after any requests.
-/

namespace ClientRoster

namespace Roster

/-- The second roster has another content in one slot of one client, which may be a new one, and differs in nothing
else. -/
structure DiffersIn (r t : Roster) (a : Address) (s : Source) (slot : Slot) : Prop where
  /-- All other clients are as they were. -/
  others : ∀ b, b ≠ a → t.client? b = r.client? b
  /-- The client is there, and its slot is filled. -/
  filled : ∃ c, t.client? a = some c ∧ c.addr = a ∧ c.slot? s = some slot
  /-- The other slots of a client that was known are as they were. -/
  known : ∀ c d, t.client? a = some c → r.client? a = some d → ∀ u, u ≠ s → c.slot? u = d.slot? u
  /-- A client that is new has no other slot. -/
  fresh : ∀ c, t.client? a = some c → r.client? a = none → ∀ u, u ≠ s → c.slot? u = none

/-- A record that differs from what was there in one slot makes that difference to the roster. -/
theorem differsIn_add (r : Roster) {a : Address} {s : Source} {slot : Slot} {c : Client} (haddr : c.addr = a)
    (hslots : ∀ u, c.slot? u = if u = s then some slot else (r.record a).slot? u) :
    r.DiffersIn (r.add c) a s slot := by
  have hhere : (r.add c).client? a = some c := by rw [client?_add, if_pos haddr.symm]
  constructor
  case others =>
    intro b hb
    rw [client?_add, haddr, if_neg hb]
  case filled => exact ⟨c, hhere, haddr, by rw [hslots, if_pos rfl]⟩
  case known =>
    intro e d he hd u hu
    obtain rfl : c = e := Option.some.inj (hhere.symm.trans he)
    rw [hslots, if_neg hu, record, hd]
    rfl
  case fresh =>
    intro e he hnone u hu
    obtain rfl : c = e := Option.some.inj (hhere.symm.trans he)
    rw [hslots, if_neg hu, record, hnone]
    exact Client.slot?_vacant a u

end Roster

namespace Desk

/-- What comes of a report of a source about an address that is asked for through a handle. Only some reports are
`recordable`. -/
structure Outcome (d : Desk) (h : Nat) (r : Roster) (change : Change) (recordable : Prop) (a : Address) (s : Source)
    (slot : Slot) : Prop where
  /-- A report that is not recordable is ignored, whatever its address. -/
  ignored : r.attempt change = .ok none ↔ ¬ recordable
  /-- Any other is refused if and only if the address stands for none, -/
  refused : r.attempt change = .error (.unusableAddress a) ↔ recordable ∧ a.isUnspecified = true
  /-- and recorded otherwise. -/
  recorded : (∃ t, r.attempt change = .ok (some t)) ↔ recordable ∧ a.isUnspecified = false
  /-- What is not recorded leaves everything as it was. -/
  untouched : (∀ t, r.attempt change ≠ .ok (some t)) → d.serve (.change h change) = d
  /-- What is recorded is seen through every handle on the roster, and through no other; it is one slot. -/
  written : ∀ t, r.attempt change = .ok (some t) →
    r.DiffersIn t a s slot ∧ ∀ k, (d.serve (.change h change)).roster? k =
      if d.handles[k]? = d.handles[h]? then some t else d.roster? k

/-- A change that leaves its roster as it was leaves the desk as it was. -/
theorem serve_eq_self {d : Desk} (hd : d.Seated) {h place : Nat} (hp : d.handles[h]? = some place) {change : Change}
    (hsame : (d.rosterAt place).perform change = d.rosterAt place) : d.serve (.change h change) = d := by
  have hlt := hd place (List.mem_of_getElem? hp)
  have hroster : d.rosterAt place = d.rosters[place] := by simp [rosterAt, hlt]
  rw [serve_change hd hp, hsame, hroster, List.set_getElem_self]

/-- What is seen through the handles after a change through one of them. -/
theorem roster?_serve {d : Desk} (hd : d.Seated) {h place : Nat} (hp : d.handles[h]? = some place) (change : Change)
    (k : Nat) : (d.serve (.change h change)).roster? k =
      if d.handles[k]? = d.handles[h]? then some ((d.rosterAt place).perform change) else d.roster? k := by
  have hserve : d.serve (.change h change) = d.put h ((d.rosterAt place).perform change) := by
    simp only [serve, hd.roster?_eq hp]
  rw [hserve]
  cases hk : d.handles[k]? with
  | none =>
    rw [hp, if_neg (Option.some_ne_none place).symm]
    simp [put, hp, roster?, hk]
  | some other =>
    rw [roster?_put d h k _ hp hk (hd place (List.mem_of_getElem? hp)), hp]
    simp only [Option.some.injEq, eq_comm]

/-- **What comes of a report follows from what the roster answers.** -/
theorem outcome_of_attempt {d : Desk} (hd : d.Seated) {h place : Nat} (hp : d.handles[h]? = some place)
    {change : Change} {recordable : Prop} [Decidable recordable] {a : Address} {s : Source} {slot : Slot} {c : Client}
    (hattempt : (d.rosterAt place).attempt change =
      if recordable then
        if a.isUnspecified then .error (.unusableAddress a) else .ok (some ((d.rosterAt place).add c))
      else .ok none)
    (haddr : c.addr = a)
    (hslots : recordable → ∀ u, c.slot? u = if u = s then some slot else ((d.rosterAt place).record a).slot? u) :
    d.Outcome h (d.rosterAt place) change recordable a s slot := by
  have hrecorded : ∀ t, (d.rosterAt place).attempt change = .ok (some t) ↔
      recordable ∧ a.isUnspecified = false ∧ (d.rosterAt place).add c = t := by
    intro t
    rw [hattempt]
    by_cases hr : recordable <;> cases ha : a.isUnspecified <;> simp [hr]
  constructor
  case ignored =>
    rw [hattempt]
    by_cases hr : recordable <;> cases ha : a.isUnspecified <;> simp [hr]
  case refused =>
    rw [hattempt]
    by_cases hr : recordable <;> cases ha : a.isUnspecified <;> simp [hr]
  case recorded => simp [hrecorded]
  case untouched =>
    intro hnone
    apply serve_eq_self hd hp
    unfold Roster.perform
    split
    · next t ht => exact absurd ht (hnone t)
    · rfl
  case written =>
    intro t ht
    obtain ⟨hr, -, rfl⟩ := (hrecorded t).mp ht
    refine ⟨Roster.differsIn_add _ haddr (hslots hr), ?_⟩
    intro k
    have hperform : (d.rosterAt place).perform change = (d.rosterAt place).add c := by
      simp only [Roster.perform, ht]
    rw [roster?_serve hd hp, hperform]

/-- Requests that store only records which were built leave no record of an address that stands for none. -/
theorem named_rosterAt {requests : List Request} (hadd : ∀ h c, .change h (.add c) ∈ requests → c.Built) (place : Nat) :
    (((single .empty).serveAll requests).rosterAt place).Named := by
  have hstart : (single .empty).rosterAt place = .empty := by
    cases place <;> rfl
  rw [rosterAt_serveAll (seated_single .empty), hstart]
  apply Roster.named_performAll Roster.named_empty
  intro change hc
  obtain ⟨handle, hmem⟩ := mem_changesAt hc
  cases change with
  | add c => exact hadd handle c hmem
  | _ => trivial

/-- **Reports are recorded whole or not at all.** Whatever was asked at the desk so far, as long as only built records
were added, and through whichever handle the report comes: host names are ignored if and only if their source lists
none, even for an address that stands for none; they are refused if and only if their source lists host names and the
address stands for none; and they are recorded otherwise. Registration data are refused for the addresses that stand for
none, and recorded for all others. What is ignored or refused leaves the desk as it was, and what is recorded is one
slot of one client. -/
theorem outcome_serveAll (requests : List Request) (hadd : ∀ h c, .change h (.add c) ∈ requests → c.Built)
    {h place : Nat} (hplace : ((single .empty).serveAll requests).handles[h]? = some place) :
    let d := (single .empty).serveAll requests
    ∃ r, d.roster? h = some r ∧
      (∀ a s hosts, d.Outcome h r (.setHosts a s hosts) (s ≠ .whois ∧ s ≠ .persistent) a s
        (.names (storedHosts hosts))) ∧
      ∀ a entry, d.Outcome h r (.setWhois a entry) True a .whois (.registration entry) := by
  intro d
  have hseated : d.Seated := (seated_single .empty).serveAll requests
  have hnamed : (d.rosterAt place).Named := named_rosterAt hadd place
  refine ⟨d.rosterAt place, hseated.roster?_eq hplace, ?_, ?_⟩
  · intro a s hosts
    have hlists : s.listsHosts = true ↔ s ≠ .whois ∧ s ≠ .persistent := by
      cases s <;> simp [Source.listsHosts]
    apply outcome_of_attempt hseated hplace (c := ((d.rosterAt place).record a).setHosts s hosts)
    · simp only [← hlists]
      exact Roster.setHosts_eq hnamed a s hosts
    · rw [Client.addr_setHosts, Roster.addr_record]
    · intro hr u
      rw [Client.slot?_setHosts]
      simp only [hlists.mpr hr, and_true]
  · intro a entry
    apply outcome_of_attempt hseated hplace (c := ((d.rosterAt place).record a).setWhois entry)
    · rw [Roster.attempt, Roster.setWhois_eq hnamed, if_pos trivial]
      cases a.isUnspecified <;> rfl
    · rw [Client.addr_setWhois, Roster.addr_record]
    · intro _ u
      exact Client.slot?_setWhois _ u entry

/-- Two handles on one roster, in which one client is known and another has a vacant record, and a third on another. -/
def reportRequests (a b : Address) : List Request := [
  .share 0, .fresh,
  .change 1 (.setHosts a .arp ["camera"]),
  .change 0 (.add (.vacant b))]

theorem outcome_serveAll_shared :
    let a : Address := .v4 ⟨192, 0, 2, 10⟩
    let b : Address := .v4 ⟨192, 0, 2, 11⟩
    let nobody : Address := .v4 ⟨0, 0, 0, 0⟩
    let d := (single .empty).serveAll (reportRequests a b)
    (∀ h c, .change h (.add c) ∈ reportRequests a b → c.Built) ∧ d.handles[1]? = some 0 ∧
      ∃ r, d.roster? 1 = some r ∧ r.attempt (.setHosts nobody .whois ["ghost"]) = .ok none ∧
        r.attempt (.setHosts nobody .dhcp ["ghost"]) = .error (.unusableAddress nobody) ∧
        d.serve (.change 1 (.setWhois nobody {})) = d ∧
        ∃ t, r.attempt (.setHosts b .dhcp [""]) = .ok (some t) ∧ r.DiffersIn t b .dhcp (.names []) ∧
          (d.serve (.change 1 (.setHosts b .dhcp [""]))).roster? 0 = some t ∧
          (d.serve (.change 1 (.setHosts b .dhcp [""]))).roster? 2 = some .empty := by
  intro a b nobody d
  have hadd : ∀ h c, .change h (.add c) ∈ reportRequests a b → c.Built := by
    intro h c hmem
    simp only [reportRequests, List.mem_cons, Request.change.injEq, Change.add.injEq, reduceCtorEq, and_false,
      false_or, or_false, List.not_mem_nil] at hmem
    obtain ⟨-, rfl⟩ := hmem
    exact .new (a := b) rfl
  have hplace : d.handles[1]? = some 0 := by decide
  obtain ⟨r, hr, hhosts, hwhois⟩ := outcome_serveAll (reportRequests a b) hadd hplace
  have hignored := (hhosts nobody .whois ["ghost"]).ignored.mpr (by decide)
  have hrefused := (hhosts nobody .dhcp ["ghost"]).refused.mpr (by decide)
  have huntouched : d.serve (.change 1 (.setWhois nobody {})) = d := by
    apply (hwhois nobody {}).untouched
    intro t ht
    have hspecified := ((hwhois nobody {}).recorded.mp ⟨t, ht⟩).2
    cases hspecified
  obtain ⟨t, ht⟩ := (hhosts b .dhcp [""]).recorded.mpr (by decide)
  obtain ⟨hdiffers, hseen⟩ := (hhosts b .dhcp [""]).written t ht
  have hempty : d.roster? 2 = some .empty := by decide
  refine ⟨hadd, hplace, r, hr, hignored, hrefused, huntouched, t, ht, hdiffers, ?_, ?_⟩
  · rw [hseen, if_pos (by decide)]
  · rw [hseen, if_neg (by decide), hempty]

end Desk

end ClientRoster
