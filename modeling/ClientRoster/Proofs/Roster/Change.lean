import ClientRoster.Roster
import ClientRoster.Proofs.Client.Edit

/-!
# `ClientRoster.Proofs.Roster.Change` — what a change does to a roster

Six changes can be asked of a roster. A change either has its effect or does nothing, and which of the two it is can
be told from the change alone, as long as the roster has no record of an address that stands for none.

## Contents
- `Change`, `Roster.attempt`, `Roster.perform`, `Roster.performAll`.
- `Roster.Named` and `Roster.Occupied`: no record of an address that stands for none, and no vacant record.
- `Change.succeeds` and `Roster.effect`: **in a `Named` roster a change has its effect iff it `succeeds`**
  (`attempt_eq_ok_some_iff`, `perform_eq`).
- `named_perform`, `occupied_perform`: changes keep the two properties.
- `Change.reaches`: the records that a change may have an effect on; the others stay as they are
  (`client?_effect_of_not_reaches`), and these are not vacant afterwards (`occupiedAt_effect`).
-/

namespace ClientRoster

/-- A change that can be asked of a roster. -/
inductive Change
  /-- Host names that a source reports for an address. -/
  | setHosts (addr : Address) (source : Source) (hosts : List String)
  /-- Registration data of an address. -/
  | setWhois (addr : Address) (entry : Whois)
  /-- A source withdraws what it reported about an address. -/
  | unset (addr : Address) (source : Source)
  /-- The record of an address goes. -/
  | erase (addr : Address)
  /-- A source is withdrawn on every client. -/
  | clear (source : Source)
  /-- A record is stored as it is. -/
  | add (record : Client)
  deriving DecidableEq, Repr

namespace Roster

/-- Tries a change; there may be nothing to store, and that is no failure. -/
def attempt (r : Roster) : Change → Except Failure (Option Roster)
  | .setHosts a s hosts => r.setHosts a s hosts
  | .setWhois a entry => (r.setWhois a entry).map some
  | .unset a s => .ok (some (r.unset a s))
  | .erase a => .ok (some (r.erase a))
  | .clear s => .ok (some (r.clear s))
  | .add c => .ok (some (r.add c))

/-- The roster after a change was tried; one that fails or stores nothing leaves it as it was. -/
def perform (r : Roster) (change : Change) : Roster :=
  match r.attempt change with
  | .ok (some changed) => changed
  | _ => r

/-- The roster after some changes. -/
def performAll (r : Roster) (changes : List Change) : Roster := changes.foldl perform r

/-! ## Two properties of rosters -/

/-- No record is kept for an address that stands for no address. -/
def Named (r : Roster) : Prop := ∀ a c, r.client? a = some c → a.isUnspecified = false

/-- The record of an address, if there is one, is not vacant. -/
def OccupiedAt (r : Roster) (a : Address) : Prop := ∀ c, r.client? a = some c → c.isVacant = false

/-- No record is vacant. -/
def Occupied (r : Roster) : Prop := ∀ a c, r.client? a = some c → c.isVacant = false

theorem named_empty : empty.Named := by
  intro a c h
  simp at h

theorem occupied_empty : empty.Occupied := by
  intro a c h
  simp at h

theorem Named.client?_eq_none {r : Roster} (h : r.Named) {a : Address} (ha : a.isUnspecified = true) :
    r.client? a = none := by
  cases hc : r.client? a with
  | none => rfl
  | some c =>
    rw [h a c hc] at ha
    cases ha

end Roster

/-! ## The effect of a change -/

/-- Does a change have an effect? Host names need a source that lists them, and nothing is recorded for an address
that stands for none. -/
def Change.succeeds : Change → Bool
  | setHosts a s _ => s.listsHosts && !a.isUnspecified
  | setWhois a _ => !a.isUnspecified
  | unset _ _ | erase _ | clear _ | add _ => true

namespace Roster

/-- The record of an address, a vacant one if there is none yet. -/
def record (r : Roster) (a : Address) : Client := (r.client? a).getD (.vacant a)

@[simp] theorem addr_record (r : Roster) (a : Address) : (r.record a).addr = a := by
  unfold record
  cases h : r.client? a with
  | none => rfl
  | some c => exact addr_of_client? h

/-- The roster after a change that has an effect. -/
def effect (r : Roster) : Change → Roster
  | .setHosts a s hosts => r.add ((r.record a).setHosts s hosts)
  | .setWhois a entry => r.add ((r.record a).setWhois entry)
  | .unset a s => r.unset a s
  | .erase a => r.erase a
  | .clear s => r.clear s
  | .add c => r.add c

theorem upsert_of_specified (r : Roster) {a : Address} (f : Client → Client) (ha : a.isUnspecified = false) :
    r.upsert a f = .ok (r.add (f (r.record a))) := by
  unfold upsert record
  cases hc : r.client? a with
  | some c => rfl
  | none =>
    rw [Client.create?_eq_ok_iff.mpr ⟨ha, rfl⟩]
    rfl

theorem upsert_of_unspecified {r : Roster} (h : r.Named) {a : Address} (f : Client → Client)
    (ha : a.isUnspecified = true) : r.upsert a f = .error (.unusableAddress a) := by
  unfold upsert
  rw [h.client?_eq_none ha]
  simp [Client.create?, ha, Except.map]

/-- Host names are recorded for a source that lists them and an address that stands for one; a source that lists none
is not told what is wrong with the address. -/
theorem setHosts_eq {r : Roster} (h : r.Named) (a : Address) (s : Source) (hosts : List String) :
    r.setHosts a s hosts =
      if s.listsHosts then
        if a.isUnspecified then .error (.unusableAddress a) else .ok (some (r.effect (.setHosts a s hosts)))
      else .ok none := by
  unfold setHosts
  by_cases hl : s.listsHosts = true
  · rw [if_pos hl, if_pos hl]
    cases ha : a.isUnspecified with
    | true =>
      rw [upsert_of_unspecified h _ ha]
      rfl
    | false =>
      rw [upsert_of_specified r _ ha]
      rfl
  · rw [if_neg hl, if_neg hl]

/-- Registration data are recorded for every address that stands for one. -/
theorem setWhois_eq {r : Roster} (h : r.Named) (a : Address) (entry : Whois) :
    r.setWhois a entry =
      if a.isUnspecified then .error (.unusableAddress a) else .ok (r.effect (.setWhois a entry)) := by
  unfold setWhois
  cases ha : a.isUnspecified with
  | true => exact upsert_of_unspecified h _ ha
  | false => exact upsert_of_specified r _ ha

theorem attempt_of_succeeds (r : Roster) {change : Change} (hs : change.succeeds = true) :
    r.attempt change = .ok (some (r.effect change)) := by
  cases change with
  | setHosts a s hosts =>
    simp only [Change.succeeds, Bool.and_eq_true, Bool.not_eq_true'] at hs
    simp only [attempt, setHosts, if_pos hs.1, upsert_of_specified r _ hs.2]
    rfl
  | setWhois a entry =>
    simp only [Change.succeeds, Bool.not_eq_true'] at hs
    simp only [attempt, setWhois, upsert_of_specified r _ hs]
    rfl
  | unset a s => rfl
  | erase a => rfl
  | clear s => rfl
  | add c => rfl

theorem attempt_of_not_succeeds {r : Roster} (h : r.Named) {change : Change} (hs : change.succeeds = false)
    (changed : Roster) : r.attempt change ≠ .ok (some changed) := by
  cases change with
  | setHosts a s hosts =>
    simp only [Change.succeeds, Bool.and_eq_false_iff, Bool.not_eq_false'] at hs
    rw [attempt, setHosts_eq h]
    -- a source without host names is ignored before the address is looked at
    by_cases hl : s.listsHosts = true
    · have ha := hs.resolve_left (by simp [hl])
      rw [if_pos hl, if_pos ha]
      simp
    · rw [if_neg hl]
      simp
  | setWhois a entry =>
    simp only [Change.succeeds, Bool.not_eq_false'] at hs
    rw [attempt, setWhois_eq h, if_pos hs]
    simp [Except.map]
  | unset a s | erase a | clear s | add c => simp [Change.succeeds] at hs

/-- **Which changes succeed does not depend on what the roster holds.** -/
theorem attempt_eq_ok_some_iff {r : Roster} (h : r.Named) (change : Change) :
    (∃ changed, r.attempt change = .ok (some changed)) ↔ change.succeeds = true := by
  constructor
  · rintro ⟨changed, hc⟩
    cases hs : change.succeeds with
    | true => rfl
    | false => exact absurd hc (attempt_of_not_succeeds h hs changed)
  · intro hs
    exact ⟨_, attempt_of_succeeds r hs⟩

theorem perform_eq {r : Roster} (h : r.Named) (change : Change) :
    r.perform change = if change.succeeds then r.effect change else r := by
  unfold perform
  by_cases hs : change.succeeds = true
  · rw [attempt_of_succeeds r hs, if_pos hs]
  · rw [if_neg hs]
    have hno := attempt_of_not_succeeds h (by simpa using hs)
    split
    · next changed hc => exact absurd hc (hno changed)
    · rfl

/-! ## Records after a change -/

/-- A withdrawal takes one slot from one client, and the client with it if nothing is left. -/
theorem client?_unset (r : Roster) (a b : Address) (s : Source) :
    (r.unset a s).client? b =
      if b = a then ((r.client? a).map (·.unset s)).filter (!·.isVacant) else r.client? b := by
  unfold unset vacatedBy
  cases hc : r.client? a with
  | none =>
    by_cases hb : b = a
    · subst hb
      simp [modify, hc]
    · simp [modify, hc, hb]
  | some c =>
    cases hv : (c.unset s).isVacant with
    | true => simp [client?_erase, Option.filter, hv]
    | false =>
      -- something is left, so the record is changed in its place
      rw [if_neg (by simp [hv]), client?_modify r a b _ fun c => Client.addr_unset c s, hc]
      simp [Option.filter, hv]

end Roster

/-! ## Changes keep the two properties -/

/-- What callers may ask for: a record that is stored was built. -/
def Change.Lawful : Change → Prop
  | add c => c.Built
  | _ => True

/-- No vacant record is stored. -/
def Change.Occupying : Change → Prop
  | add c => c.isVacant = false
  | _ => True

namespace Roster

theorem named_add {r : Roster} (h : r.Named) {c : Client} (hc : c.addr.isUnspecified = false) :
    (r.add c).Named := by
  intro a d hd
  rw [client?_add] at hd
  by_cases ha : a = c.addr
  · exact ha ▸ hc
  · rw [if_neg ha] at hd
    exact h a d hd

theorem named_unset {r : Roster} (h : r.Named) (a : Address) (s : Source) : (r.unset a s).Named := by
  intro b d hd
  rw [client?_unset] at hd
  by_cases hb : b = a
  · subst hb
    cases hc : r.client? b with
    | none => simp [hc] at hd
    | some c => exact h b c hc
  · rw [if_neg hb] at hd
    exact h b d hd

theorem named_erase {r : Roster} (h : r.Named) (a : Address) : (r.erase a).Named := by
  intro b d hd
  rw [client?_erase] at hd
  by_cases hb : b = a
  · simp [hb] at hd
  · rw [if_neg hb] at hd
    exact h b d hd

theorem named_clear {r : Roster} (h : r.Named) (s : Source) : (r.clear s).Named := by
  intro b d hd
  rw [client?_clear] at hd
  cases hc : r.client? b with
  | none => simp [hc] at hd
  | some c => exact h b c hc

theorem named_perform {r : Roster} (h : r.Named) {change : Change} (hc : change.Lawful) :
    (r.perform change).Named := by
  rw [perform_eq h]
  by_cases hs : change.succeeds = true
  · rw [if_pos hs]
    cases change with
    | setHosts a s hosts =>
      simp only [Change.succeeds, Bool.and_eq_true, Bool.not_eq_true'] at hs
      exact named_add h (by simp [hs.2])
    | setWhois a entry =>
      simp only [Change.succeeds, Bool.not_eq_true'] at hs
      exact named_add h (by simp [hs])
    | unset a s => exact named_unset h a s
    | erase a => exact named_erase h a
    | clear s => exact named_clear h s
    | add c => exact named_add h (Client.Built.addr_specified hc)
  · rw [if_neg hs]
    exact h

theorem isVacant_eq_false_of_slot {c : Client} {s : Source} {slot : Slot} (h : c.slot? s = some slot) :
    c.isVacant = false := by
  cases hv : c.isVacant with
  | false => rfl
  | true =>
    have hs := (Client.isVacant_iff c).mp hv s
    rw [h] at hs
    cases hs

theorem isVacant_of_filter {c? : Option Client} {d : Client} (h : c?.filter (!·.isVacant) = some d) :
    d.isVacant = false := by
  have hp := (Option.filter_eq_some_iff.mp h).2
  simpa using hp

/-- Withdrawing a source everywhere also removes the records that were vacant before. -/
theorem occupied_clear (r : Roster) (s : Source) : (r.clear s).Occupied := by
  intro b d hd
  rw [client?_clear] at hd
  exact isVacant_of_filter hd

end Roster

/-! ## Records that a change reaches -/

/-- May a change have an effect on the record of an address? -/
def Change.reaches (a : Address) : Change → Bool
  | setHosts b _ _ | setWhois b _ | unset b _ | erase b => a = b
  | clear _ => true
  | add c => a = c.addr

namespace Roster

theorem client?_effect_of_not_reaches (r : Roster) {change : Change} {a : Address}
    (h : change.reaches a = false) : (r.effect change).client? a = r.client? a := by
  cases change with
  | setHosts b s hosts =>
    have hb : ¬ a = b := of_decide_eq_false h
    rw [effect, client?_add, Client.addr_setHosts, addr_record, if_neg hb]
  | setWhois b entry =>
    have hb : ¬ a = b := of_decide_eq_false h
    rw [effect, client?_add, Client.addr_setWhois, addr_record, if_neg hb]
  | unset b s =>
    have hb : ¬ a = b := of_decide_eq_false h
    rw [effect, client?_unset, if_neg hb]
  | erase b =>
    have hb : ¬ a = b := of_decide_eq_false h
    rw [effect, client?_erase, if_neg hb]
  | clear s => cases h
  | add c =>
    have hc : ¬ a = c.addr := of_decide_eq_false h
    rw [effect, client?_add, if_neg hc]

theorem occupiedAt_add {r : Roster} {c : Client} (hc : c.isVacant = false) : (r.add c).OccupiedAt c.addr := by
  intro d hd
  rw [client?_add, if_pos rfl] at hd
  exact Option.some.inj hd ▸ hc

/-- A change that has an effect leaves no vacant record where it reaches, though one may have been there. -/
theorem occupiedAt_effect (r : Roster) {change : Change} (hs : change.succeeds = true) (ho : change.Occupying)
    {a : Address} (h : change.reaches a = true) : (r.effect change).OccupiedAt a := by
  cases change with
  | setHosts b s hosts =>
    obtain rfl : a = b := of_decide_eq_true h
    simp only [Change.succeeds, Bool.and_eq_true] at hs
    have hslot : ((r.record a).setHosts s hosts).slot? s = some (.names (storedHosts hosts)) := by
      rw [Client.slot?_setHosts, if_pos ⟨rfl, hs.1⟩]
    simpa [effect] using occupiedAt_add (r := r) (isVacant_eq_false_of_slot hslot)
  | setWhois b entry =>
    obtain rfl : a = b := of_decide_eq_true h
    have hslot : ((r.record a).setWhois entry).slot? .whois = some (.registration entry) := by
      rw [Client.slot?_setWhois, if_pos rfl]
    simpa [effect] using occupiedAt_add (r := r) (isVacant_eq_false_of_slot hslot)
  | unset b s =>
    obtain rfl : a = b := of_decide_eq_true h
    intro d hd
    rw [effect, client?_unset, if_pos rfl] at hd
    exact isVacant_of_filter hd
  | erase b =>
    obtain rfl : a = b := of_decide_eq_true h
    intro d hd
    rw [effect, client?_erase, if_pos rfl] at hd
    cases hd
  | clear s => exact occupied_clear r s a
  | add c =>
    obtain rfl : a = c.addr := of_decide_eq_true h
    exact occupiedAt_add ho

theorem occupied_perform {r : Roster} (hn : r.Named) (h : r.Occupied) {change : Change}
    (hc : change.Occupying) : (r.perform change).Occupied := by
  rw [perform_eq hn]
  by_cases hs : change.succeeds = true
  · rw [if_pos hs]
    intro a
    cases hr : change.reaches a with
    | true => exact occupiedAt_effect r hs hc hr
    | false =>
      intro c
      rw [client?_effect_of_not_reaches r hr]
      exact h a c
  · rw [if_neg hs]
    exact h

end Roster

end ClientRoster
