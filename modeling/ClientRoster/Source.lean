/-!
# `ClientRoster.Source` — where information about a client comes from

Five mechanisms report on the clients of a network, and a sixth name stands for what an operator wrote down
by hand. The order of declaration is the order of strength: of two sources that both know a client, the later
one names it.

## Contents
- `Source`, its number (`Source.rank`), the order that the numbers give, and `Source.ofRank?`.
- Written names: `Source.name` and its reader `Source.ofName?`. The persistent source has the empty name, and
  no text is read as it (`ofName?_eq_some_iff`).
- `Source.byStrength`: the sources that resolution asks, strongest first.
-/

namespace ClientRoster

/-- A mechanism that client information comes from, weakest first. -/
inductive Source
  /-- Registration data of the address, looked up with the WHOIS protocol. -/
  | whois
  /-- The neighbour table of the host. -/
  | arp
  /-- A reverse look-up in the domain name system. -/
  | rdns
  /-- The leases that the address server handed out. -/
  | dhcp
  /-- The hosts file of the system. -/
  | hostsFile
  /-- A lasting entry of the operator, kept outside the roster. -/
  | persistent
  deriving DecidableEq, Repr

namespace Source

/-! ## Numbers and order -/

/-- The place of a source in the order of strength, counted from one. -/
def rank : Source → Nat
  | whois => 1
  | arp => 2
  | rdns => 3
  | dhcp => 4
  | hostsFile => 5
  | persistent => 6

/-- The source at a place in the order of strength. -/
def ofRank? : Nat → Option Source
  | 1 => some whois
  | 2 => some arp
  | 3 => some rdns
  | 4 => some dhcp
  | 5 => some hostsFile
  | 6 => some persistent
  | _ => none

theorem ofRank?_rank (s : Source) : ofRank? s.rank = some s := by
  cases s <;> rfl

theorem rank_injective {s t : Source} (h : s.rank = t.rank) : s = t := by
  have hs := ofRank?_rank s
  rw [h, ofRank?_rank t] at hs
  exact (Option.some.inj hs).symm

instance : LE Source := ⟨fun s t => s.rank ≤ t.rank⟩

instance : LT Source := ⟨fun s t => s.rank < t.rank⟩

instance (s t : Source) : Decidable (s ≤ t) := inferInstanceAs (Decidable (s.rank ≤ t.rank))

instance (s t : Source) : Decidable (s < t) := inferInstanceAs (Decidable (s.rank < t.rank))

theorem le_def {s t : Source} : s ≤ t ↔ s.rank ≤ t.rank := Iff.rfl

theorem lt_def {s t : Source} : s < t ↔ s.rank < t.rank := Iff.rfl

/-- The sources in ascending order, with repetitions kept. -/
def sort (sources : List Source) : List Source :=
  sources.mergeSort fun s t => decide (s ≤ t)

/-- The strongest of some sources. -/
def strongest? (sources : List Source) : Option Source :=
  sources.foldl (fun best s => match best with
    | none => some s
    | some b => if b ≤ s then some s else some b) none

/-! ## What a source can report -/

/-- The sources that resolution asks, strongest first; the persistent one is resolved elsewhere. -/
def byStrength : List Source := [hostsFile, dhcp, rdns, arp, whois]

theorem mem_byStrength {s : Source} : s ∈ byStrength ↔ s ≠ persistent := by
  cases s <;> decide

/-- Does the source report a list of host names? -/
def listsHosts : Source → Bool
  | arp | rdns | dhcp | hostsFile => true
  | whois | persistent => false

/-! ## Written names -/

/-- The name that people read; the persistent source has none. -/
def name : Source → String
  | whois => "WHOIS"
  | arp => "ARP"
  | rdns => "rDNS"
  | dhcp => "DHCP"
  | hostsFile => "etc/hosts"
  | persistent => ""

/-- The tag that diagnostic texts show. -/
def tag : Source → String
  | whois => "Whois"
  | arp => "Arp"
  | rdns => "Rdns"
  | dhcp => "Dhcp"
  | hostsFile => "HostsFile"
  | persistent => "Persistent"

/-- Reads a name, exactly as written; only the five sources with a name can be read. -/
def ofName? (text : String) : Option Source :=
  byStrength.find? fun s => decide (s.name = text)

theorem name_injective {s t : Source} (h : s.name = t.name) : s = t := by
  revert h
  cases s <;> cases t <;> decide

theorem ofName?_eq_some_iff {text : String} {s : Source} :
    ofName? text = some s ↔ s ≠ persistent ∧ s.name = text := by
  constructor
  · intro h
    have hname := List.find?_some h
    exact ⟨mem_byStrength.mp (List.mem_of_find?_eq_some h), of_decide_eq_true hname⟩
  · rintro ⟨hs, rfl⟩
    cases s <;> first | rfl | exact absurd rfl hs

/-- The name of the source that names a client, empty when nothing does. -/
def nameOf : Option Source → String
  | none => ""
  | some s => s.name

end Source

end ClientRoster
