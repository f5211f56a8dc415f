import ClientRoster.Proofs.Client.Edit

/-!
# `ClientRoster.Proofs.Client.Slots` — a record is what was left in its slots

A change is about one slot, or about none: host names are kept for some sources only, and the persistent source has no
slot at all. So what a record holds after any changes can be said slot by slot, from the changes alone, and all who look
at the record are told the same, whichever way they ask.

## Contents
- `Edit.source`, `Edit.applies`, `Edit.left?`: the slot that a change is about, and what it leaves there.
- `slot?_edit`, `slot?_editAll`: slots after one change, and after some; `lastLeft` is the content they end up with.
- `edit_comm`, `edit_of_not_applies`: changes for different sources, and changes that are ignored.
- `Client.Shows`: what a record with a given content tells.
- **`shows_editAll`**: every record that can be made shows what was left in its slots last.
-/

namespace ClientRoster.Client

/-! ## The slot that a change is about -/

namespace Edit

/-- The source that a change names. -/
def source : Edit → Source
  | setHosts s _ | unset s => s
  | setWhois _ => .whois

/-- Has the source a slot that the change could be about? -/
def applies : Edit → Bool
  | setHosts s _ => s.listsHosts
  | setWhois _ => true
  | unset s => decide (s ≠ .persistent)

/-- What the change leaves in its slot. -/
def left? : Edit → Option Slot
  | setHosts _ hosts => some (.names (storedHosts hosts))
  | setWhois entry => some (.registration entry)
  | unset _ => none

/-- Is the change about the slot of this source? -/
def reaches (s : Source) (e : Edit) : Bool := e.applies && decide (e.source = s)

theorem source_of_reaches {e : Edit} {s : Source} (h : e.reaches s = true) : e.source = s :=
  of_decide_eq_true (Bool.and_eq_true_iff.mp h).2

end Edit

/-- **What one change does to one slot.** -/
theorem slot?_edit (c : Client) (e : Edit) (s : Source) :
    (c.edit e).slot? s = if e.reaches s then e.left? else c.slot? s := by
  cases e with
  | setHosts t hosts =>
    rw [edit, slot?_setHosts]
    simp [Edit.reaches, Edit.applies, Edit.source, Edit.left?, and_comm, @eq_comm Source t s]
  | setWhois entry =>
    rw [edit, slot?_setWhois]
    simp [Edit.reaches, Edit.applies, Edit.source, Edit.left?, @eq_comm Source .whois s]
  | unset t =>
    rw [edit, slot?_unset]
    by_cases ht : t = .persistent
    · -- the slot that is not there is vacant before and after
      subst ht
      cases s <;> rfl
    · simp [Edit.reaches, Edit.applies, Edit.source, Edit.left?, ht, @eq_comm Source t s]

/-- **Changes for different sources may be made in either order.** -/
theorem edit_comm (c : Client) {e f : Edit} (h : e.source ≠ f.source) :
    (c.edit e).edit f = (c.edit f).edit e := by
  apply ext_slots
  · simp
  · intro s
    simp only [slot?_edit]
    cases he : e.reaches s with
    | false => simp
    | true =>
      -- the slot is that of one source, so the other change is not about it
      have hf : f.reaches s = false := by
        rw [Bool.eq_false_iff]
        intro hf
        exact h ((Edit.source_of_reaches he).trans (Edit.source_of_reaches hf).symm)
      simp [hf]

/-- A change that is about no slot leaves the record as it is. -/
theorem edit_of_not_applies (c : Client) {e : Edit} (h : e.applies = false) : c.edit e = c := by
  apply ext_slots
  · simp
  · intro s
    rw [slot?_edit, Edit.reaches, h, Bool.false_and, if_neg Bool.false_ne_true]

/-! ## After any changes -/

/-- What the last of some changes to be about the slot of a source left there; nothing if there is none. -/
def lastLeft (edits : List Edit) (s : Source) : Option Slot :=
  (edits.reverse.find? (Edit.reaches s)).bind Edit.left?

/-- A slot that no change was about holds what it held before. -/
theorem slot?_editAll (c : Client) (edits : List Edit) (s : Source) :
    (c.editAll edits).slot? s = ((edits.reverse.find? (Edit.reaches s)).map Edit.left?).getD (c.slot? s) := by
  induction edits generalizing c with
  | nil => rfl
  | cons e rest ih =>
    have hrest : (c.editAll (e :: rest)).slot? s = ((c.edit e).editAll rest).slot? s := rfl
    rw [hrest, ih, slot?_edit, List.reverse_cons, List.find?_append]
    -- the first change is the last to be asked
    cases rest.reverse.find? (Edit.reaches s) with
    | some f => rfl
    | none => cases he : e.reaches s <;> simp [he]

/-- **A new record that was changed holds what was left in its slots last.** -/
theorem slot?_editAll_vacant (a : Address) (edits : List Edit) (s : Source) :
    ((vacant a).editAll edits).slot? s = lastLeft edits s := by
  rw [slot?_editAll, slot?_vacant, lastLeft]
  cases edits.reverse.find? (Edit.reaches s) <;> rfl

/-! ## What a record tells -/

/-- The slots of the sources that list host names hold what the sources reported. -/
theorem map_names_hosts? (c : Client) {s : Source} (h : s.listsHosts = true) :
    (c.hosts? s).map .names = c.slot? s := by
  cases s <;> first | rfl | cases h

/-- A record is vacant if it holds neither registration data nor host names. -/
theorem isVacant_iff_hosts? (c : Client) :
    c.isVacant = true ↔ c.whois = none ∧ ∀ s, s.listsHosts → c.hosts? s = none := by
  rw [isVacant_iff]
  constructor
  · intro h
    refine ⟨Option.map_eq_none_iff.mp (h .whois), ?_⟩
    intro s hs
    have hslot := h s
    rwa [← map_names_hosts? c hs, Option.map_eq_none_iff] at hslot
  · rintro ⟨hwhois, hhosts⟩ s
    cases s with
    | whois => exact Option.map_eq_none_iff.mpr hwhois
    | persistent => rfl
    | _ => exact Option.map_eq_none_iff.mpr (hhosts _ rfl)

/-- A record is vacant when no source names its client. -/
theorem isVacant_iff_resolve? (c : Client) : c.isVacant = true ↔ c.resolve? = none := by
  rw [isVacant_iff, resolve?_eq_none_iff]

/-- What the ways of looking at a record of an address tell, when its slots have this content. -/
structure Shows (c : Client) (a : Address) (content : Source → Option Slot) : Prop where
  /-- It is the record of the address. -/
  addr : c.addr = a
  /-- The host names of a source are those in its slot, -/
  hosts : ∀ s, s.listsHosts → (c.hosts? s).map .names = content s
  /-- and the registration data is that in the slot for it. -/
  whois : c.whois.map .registration = content .whois
  /-- The record is vacant exactly if there is none of either, -/
  vacant : c.isVacant = true ↔ c.whois = none ∧ ∀ s, s.listsHosts → c.hosts? s = none
  /-- and exactly if no source names the client. -/
  unnamed : c.isVacant = true ↔ c.resolve? = none
  /-- Otherwise the client is named by the strongest source with an occupied slot. -/
  named : c.isVacant = false → ∃ s slot, content s = some slot ∧ c.resolve? = some (s, slot.firstName) ∧
    ∀ t, (content t).isSome → t ≤ s

/-- **All ways of looking at a record go by its slots.** -/
theorem shows_of_slots {c : Client} {content : Source → Option Slot} (h : ∀ s, c.slot? s = content s) :
    c.Shows c.addr content := by
  constructor
  case addr => rfl
  case hosts =>
    intro s hs
    rw [map_names_hosts? c hs, h]
  case whois => exact h .whois
  case vacant => exact isVacant_iff_hosts? c
  case unnamed => exact isVacant_iff_resolve? c
  case named =>
    intro hvacant
    cases hres : c.resolve? with
    | none =>
      rw [(isVacant_iff_resolve? c).mpr hres] at hvacant
      cases hvacant
    | some winner =>
      obtain ⟨s, name⟩ := winner
      obtain ⟨slot, hslot, rfl, hmax⟩ := resolve?_eq_some_iff.mp hres
      refine ⟨s, slot, (h s).symm.trans hslot, rfl, ?_⟩
      intro t ht
      exact hmax t (h t ▸ ht)

/-- **Every record that can be made shows what was left in its slots last.** However a new record is changed, and be it
emptied and filled again: it stays the record of its address, each slot holds what the last change about it left there,
and the record tells the same whether it is asked for host names and registration data, for being vacant, or for the
source that names its client. A change that is about no slot is ignored, and changes for different sources may be made
in either order. -/
theorem shows_editAll {a : Address} {c : Client} (h : create? a = .ok c) (edits : List Edit) :
    (c.editAll edits).Shows a (lastLeft edits) ∧
      (∀ e : Edit, e.applies = false → (c.editAll edits).edit e = c.editAll edits) ∧
      ∀ e f : Edit, e.source ≠ f.source → ((c.editAll edits).edit e).edit f = ((c.editAll edits).edit f).edit e := by
  obtain ⟨-, rfl⟩ := create?_eq_ok_iff.mp h
  refine ⟨?_, ?_, ?_⟩
  · have hshows := shows_of_slots (slot?_editAll_vacant a edits)
    rwa [addr_editAll] at hshows
  · intro e he
    exact edit_of_not_applies _ he
  · intro e f hef
    exact edit_comm _ hef

/-- Changes that fill a record, empty it and fill it again, with some that are ignored. -/
def refilling : List Edit := [
  .setHosts .dhcp ["laptop"], .setWhois {}, .setHosts .whois ["ignored"], .unset .dhcp, .unset .whois,
  .setHosts .arp ["nas", "printer"], .setHosts .persistent ["pinned"], .setHosts .rdns [""], .unset .persistent]

theorem shows_editAll_refilling :
    let a : Address := .v4 ⟨192, 0, 2, 10⟩
    let c := (vacant a).editAll refilling
    create? a = .ok (vacant a) ∧ c.addr = a ∧ c.whois.map .registration = lastLeft refilling .whois ∧
      lastLeft refilling .whois = none ∧ (c.hosts? .rdns).map .names = lastLeft refilling .rdns ∧
      lastLeft refilling .rdns = some (.names []) ∧ c.resolve? = some (.rdns, "") ∧
      c.edit (.unset .persistent) = c ∧
      (c.edit (.unset .arp)).edit (.setWhois {}) = (c.edit (.setWhois {})).edit (.unset .arp) := by
  intro a c
  have hnew : create? a = .ok (vacant a) := rfl
  obtain ⟨hshows, hignored, hcomm⟩ := shows_editAll hnew refilling
  obtain ⟨s, slot, hslot, hres, hmax⟩ := hshows.named (by decide)
  -- the reverse look-up is the strongest of the two slots that are occupied
  have hs : s = .rdns := by
    have hle : Source.rdns ≤ s := hmax .rdns (by decide)
    cases s with
    | rdns => rfl
    | whois | arp => exact absurd hle (by decide)
    | dhcp | hostsFile | persistent => cases hslot
  subst hs
  obtain rfl : Slot.names [] = slot := Option.some.inj hslot
  exact ⟨hnew, hshows.addr, hshows.whois, by decide, hshows.hosts .rdns rfl, by decide, hres,
    hignored _ (by decide), hcomm _ _ (by decide)⟩

end ClientRoster.Client
