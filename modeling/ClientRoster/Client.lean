import ClientRoster.Source
import ClientRoster.Whois
import ClientRoster.Failure

/-!
# `ClientRoster.Client` — the record of one client

A record holds, for each of five sources, what that source reported last. A source that never reported, or whose
report was withdrawn, leaves its slot vacant; one that reported nothing of use leaves an occupied slot with no
host names in it. The strongest occupied slot names the client.

## Contents
- `Client`, `Client.create?` and the changes `setHosts`, `setWhois`, `unset`.
- `Slot` and `Client.slot?`: the one view that every operation is described through
  (`slot?_setHosts`, `slot?_setWhois`, `slot?_unset`).
- `Client.resolve?`: the source that names the client, with the name.
-/

namespace ClientRoster

/-- What one source knows about one client. -/
inductive Slot
  | registration (entry : Whois)
  | names (hosts : List String)
  deriving DecidableEq, Repr

namespace Slot

/-- The name that a slot gives to a client: its first host name, or none at all. -/
def firstName : Slot → String
  | registration _ => ""
  | names hosts => hosts.head?.getD ""

end Slot

/-- The record of one client: what each source reported last. -/
structure Client where
  addr : Address
  whois : Option Whois := none
  arp : Option (List String) := none
  rdns : Option (List String) := none
  dhcp : Option (List String) := none
  hostsFile : Option (List String) := none
  deriving DecidableEq, Repr

/-- Host names as they are stored: a single empty name says no more than no name. -/
def storedHosts (hosts : List String) : List String :=
  if hosts = [""] then [] else hosts

theorem storedHosts_ne (hosts : List String) : storedHosts hosts ≠ [""] := by
  unfold storedHosts
  split
  · simp
  · assumption

namespace Client

/-- A record in which every slot is vacant. -/
def vacant (addr : Address) : Client := { addr := addr }

/-- A new record; the unspecified addresses identify nobody and get none. -/
def create? (addr : Address) : Except Failure Client :=
  if addr.isUnspecified then .error (.unusableAddress addr) else .ok (vacant addr)

/-! ## Reading the slots -/

/-- The host names that a source reported, if it lists host names and reported any list. -/
def hosts? (c : Client) : Source → Option (List String)
  | .arp => c.arp
  | .rdns => c.rdns
  | .dhcp => c.dhcp
  | .hostsFile => c.hostsFile
  | .whois | .persistent => none

/-- The slot of a source, `none` when it is vacant. -/
def slot? (c : Client) : Source → Option Slot
  | .whois => c.whois.map .registration
  | s => (c.hosts? s).map .names

/-- Does no source know anything about the client? -/
def isVacant (c : Client) : Bool :=
  c.whois.isNone && c.arp.isNone && c.rdns.isNone && c.dhcp.isNone && c.hostsFile.isNone

/-- The strongest source with an occupied slot, and the name that it gives. -/
def resolve? (c : Client) : Option (Source × String) :=
  Source.byStrength.findSome? fun s => (c.slot? s).map fun slot => (s, slot.firstName)

/-! ## Changing the slots -/

/-- Puts the value of the slot that lists the host names of `s`; the other sources have no such slot. -/
def putHosts (c : Client) (s : Source) (value : Option (List String)) : Client :=
  match s with
  | .arp => { c with arp := value }
  | .rdns => { c with rdns := value }
  | .dhcp => { c with dhcp := value }
  | .hostsFile => { c with hostsFile := value }
  | .whois | .persistent => c

/-- Records the host names that a source reported. -/
def setHosts (c : Client) (s : Source) (hosts : List String) : Client :=
  c.putHosts s (some (storedHosts hosts))

/-- Records the registration data of the address. -/
def setWhois (c : Client) (entry : Whois) : Client := { c with whois := some entry }

/-- Withdraws what a source reported. -/
def unset (c : Client) (s : Source) : Client :=
  match s with
  | .whois => { c with whois := none }
  | s => c.putHosts s none

/-! ## The slots after a change -/

@[simp] theorem addr_setHosts (c : Client) (s : Source) (hosts : List String) :
    (c.setHosts s hosts).addr = c.addr := by
  cases s <;> rfl

@[simp] theorem addr_setWhois (c : Client) (entry : Whois) : (c.setWhois entry).addr = c.addr := rfl

@[simp] theorem addr_unset (c : Client) (s : Source) : (c.unset s).addr = c.addr := by
  cases s <;> rfl

theorem slot?_setHosts (c : Client) (s t : Source) (hosts : List String) :
    (c.setHosts s hosts).slot? t =
      if t = s ∧ s.listsHosts then some (.names (storedHosts hosts)) else c.slot? t := by
  cases s <;> cases t <;> rfl

theorem slot?_setWhois (c : Client) (t : Source) (entry : Whois) :
    (c.setWhois entry).slot? t = if t = .whois then some (.registration entry) else c.slot? t := by
  cases t <;> rfl

theorem slot?_unset (c : Client) (s t : Source) :
    (c.unset s).slot? t = if t = s then none else c.slot? t := by
  cases s <;> cases t <;> rfl

@[simp] theorem slot?_vacant (addr : Address) (t : Source) : (vacant addr).slot? t = none := by
  cases t <;> rfl

/-- A record is vacant when every slot is. -/
theorem isVacant_iff (c : Client) : c.isVacant ↔ ∀ s, c.slot? s = none := by
  constructor
  · intro h s
    simp only [isVacant, Bool.and_eq_true, Option.isNone_iff_eq_none] at h
    obtain ⟨⟨⟨⟨hw, ha⟩, hr⟩, hd⟩, hf⟩ := h
    cases s <;> simp [slot?, hosts?, hw, ha, hr, hd, hf]
  · intro h
    have hw := h .whois
    have ha := h .arp
    have hr := h .rdns
    have hd := h .dhcp
    have hf := h .hostsFile
    simp only [slot?, hosts?, Option.map_eq_none_iff] at hw ha hr hd hf
    simp [isVacant, hw, ha, hr, hd, hf]

/-- Records with one address and equal slots are equal. -/
theorem ext_slots {c d : Client} (haddr : c.addr = d.addr) (h : ∀ s, c.slot? s = d.slot? s) : c = d := by
  have names_inj : ∀ {x y : Option (List String)}, x.map Slot.names = y.map Slot.names → x = y := by
    intro x y hxy
    cases x <;> cases y <;> simp_all
  have registration_inj : ∀ {x y : Option Whois},
      x.map Slot.registration = y.map Slot.registration → x = y := by
    intro x y hxy
    cases x <;> cases y <;> simp_all
  obtain ⟨_, _, _, _, _, _⟩ := c
  obtain ⟨_, _, _, _, _, _⟩ := d
  have hw := registration_inj (h .whois)
  have ha := names_inj (h .arp)
  have hr := names_inj (h .rdns)
  have hd := names_inj (h .dhcp)
  have hf := names_inj (h .hostsFile)
  simp only [hosts?] at ha hr hd hf
  simp_all

end Client

end ClientRoster
