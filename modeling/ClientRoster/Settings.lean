import ClientRoster.Failure
import ClientRoster.Source

/-!
# `ClientRoster.Settings` — which sources are heard, and how much waits

A policy says of each of the five sources whether its hints are accepted; the persistent source is never accepted.
The other setting is how many notices may wait for a slow listener.
-/

namespace ClientRoster

/-- Which sources are accepted: all, unless told otherwise. -/
structure SourcePolicy where
  whois : Bool := true
  arp : Bool := true
  rdns : Bool := true
  dhcp : Bool := true
  hosts : Bool := true
  deriving DecidableEq, Repr

namespace SourcePolicy

/-- Is a source accepted? -/
def accepts (p : SourcePolicy) : Source → Bool
  | .whois => p.whois
  | .arp => p.arp
  | .rdns => p.rdns
  | .dhcp => p.dhcp
  | .hostsFile => p.hosts
  | .persistent => false

/-- The policy with one source switched; there is no switch for the persistent one. -/
def switch (p : SourcePolicy) (s : Source) (on : Bool) : SourcePolicy :=
  match s with
  | .whois => { p with whois := on }
  | .arp => { p with arp := on }
  | .rdns => { p with rdns := on }
  | .dhcp => { p with dhcp := on }
  | .hostsFile => { p with hosts := on }
  | .persistent => p

/-- The sources that are not accepted, strongest first. -/
def refused (p : SourcePolicy) : List Source := Source.byStrength.filter (!p.accepts ·)

theorem accepts_switch (p : SourcePolicy) (s t : Source) (on : Bool) :
    (p.switch s on).accepts t = if t = s ∧ s ≠ .persistent then on else p.accepts t := by
  cases s <;> cases t <;> rfl

theorem mem_refused {p : SourcePolicy} {s : Source} :
    s ∈ p.refused ↔ s ≠ .persistent ∧ p.accepts s = false := by
  simp [refused, Source.mem_byStrength]

end SourcePolicy

/-- The settings of an intake. -/
structure Settings where
  sources : SourcePolicy := {}
  /-- How many notices may wait to be read. -/
  capacity : Nat := 1000
  deriving DecidableEq, Repr

namespace Settings

/-- Settings with no room for any notice cannot work. -/
def check (s : Settings) : Except Failure Unit :=
  if s.capacity = 0 then .error (.settings "Event channel capacity must be > 0") else .ok ()

end Settings

end ClientRoster
