import ClientRoster.Proofs.Json.Record
import ClientRoster.Settings.Json

/-!
# `ClientRoster.Proofs.Settings.Form` — which documents are settings

Settings are a record of two parts, which are records themselves. Either part may be left out, and so may each field
in a part; whatever is left out has its default. It makes no difference whether a part is left out or empty: the default
of a part is the record of the defaults of its fields.

## Contents
- `Doc.IsSettings`: the form, with what the document gives at the place of each field.
- `SourcePolicy.readInPlace_eq_ok_iff`, `Settings.readCapacity_eq_ok_iff`: the two parts.
- **`Settings.readInPlace_eq_ok_iff`: settings are read from the documents of this form.**
-/

namespace ClientRoster

open Json

namespace SourcePolicy

/-- The name of the switch of a source. The persistent one has none. -/
def switchName : Source → String
  | .whois => "whois"
  | .arp => "arp"
  | .rdns => "rdns"
  | .dhcp => "dhcp"
  | .hostsFile => "hosts"
  | .persistent => ""

/-- The names of the switches, in their order. -/
def switchNames : List String := ["whois", "arp", "rdns", "dhcp", "hosts"]

/-- What is given for the switches makes a policy: a source is accepted as its switch says, and also where the switch is
not given. -/
def Given (given : String → List Doc) (p : SourcePolicy) : Prop :=
  ∀ s, s ≠ .persistent → AtMostOnce Doc.IsBool true (given (switchName s)) (p.accepts s)

end SourcePolicy

namespace Settings

/-- The names of the parts, in their order. -/
def partNames : List String := ["runtime_sources", "engine"]

/-- The names of the settings of the notices. -/
def engineNames : List String := ["event_channel_capacity"]

/-- What is given for the capacity makes it this number. -/
def CapacityGiven (given : String → List Doc) (n : Nat) : Prop :=
  AtMostOnce Doc.IsCount 1000 (given "event_channel_capacity") n

/-- The documents at the place of the switch of a source. -/
def switchDocs (d : Doc) (s : Source) : List Doc :=
  givenIn SourcePolicy.switchNames (d.given partNames "runtime_sources") (SourcePolicy.switchName s)

/-- The documents at the place of the capacity. -/
def capacityDocs (d : Doc) : List Doc :=
  givenIn engineNames (d.given partNames "engine") "event_channel_capacity"

end Settings

/-- The document is settings: it and its parts are records, and each setting is the one that is given at its place, or
the default if none is given. -/
structure Json.Doc.IsSettings (d : Doc) (s : Settings) : Prop where
  /-- The whole has the form of a record, and so has each part that is given; none is given twice. -/
  parts : d.IsRecord Settings.partNames
  sources : OneRecord SourcePolicy.switchNames (d.given Settings.partNames "runtime_sources")
  engine : OneRecord Settings.engineNames (d.given Settings.partNames "engine")
  /-- A switch is as it is given, and on where it is not, in a part that is left out as in one that is not. -/
  accepts : ∀ source, source ≠ .persistent →
    AtMostOnce Doc.IsBool true (Settings.switchDocs d source) (s.sources.accepts source)
  /-- The same holds of the capacity. -/
  capacity : AtMostOnce Doc.IsCount 1000 (Settings.capacityDocs d) s.capacity

namespace SourcePolicy

/-! ## The switches -/

/-- A policy is known from the sources that it accepts. -/
theorem eq_of_accepts {p q : SourcePolicy} (h : ∀ s, s ≠ .persistent → p.accepts s = q.accepts s) : p = q := by
  obtain ⟨whois, arp, rdns, dhcp, hosts⟩ := p
  obtain rfl : whois = q.whois := h .whois (by decide)
  obtain rfl : arp = q.arp := h .arp (by decide)
  obtain rfl : rdns = q.rdns := h .rdns (by decide)
  obtain rfl : dhcp = q.dhcp := h .dhcp (by decide)
  obtain rfl : hosts = q.hosts := h .hostsFile (by decide)
  rfl

theorem accepts_default {s : Source} (h : s ≠ .persistent) : ({} : SourcePolicy).accepts s = true := by
  cases s with
  | persistent => exact absurd rfl h
  | _ => rfl

theorem switch_accepts (p : SourcePolicy) (s : Source) : p.switch s (p.accepts s) = p := by
  cases s <;> rfl

theorem switch_comm {s t : Source} (h : s ≠ t) (p : SourcePolicy) (on on' : Bool) :
    (p.switch s on).switch t on' = (p.switch t on').switch s on := by
  apply eq_of_accepts
  intro u _
  rw [accepts_switch, accepts_switch, accepts_switch, accepts_switch]
  by_cases hu : u = s
  · have hne : u ≠ t := fun heq => h (hu.symm.trans heq)
    simp [hne]
  · simp [hu]

/-- The sources in the order of their switches. -/
def switched : List Source := [.whois, .arp, .rdns, .dhcp, .hostsFile]

theorem mem_switched {s : Source} : s ∈ switched ↔ s ≠ .persistent := by
  cases s <;> decide

theorem switchName_injective {s t : Source} (h : switchName s = switchName t) : s = t := by
  revert h
  cases s <;> cases t <;> decide

/-- Sets the switch of a source. -/
def setSwitch (s : Source) (on : Bool) (p : SourcePolicy) : SourcePolicy := p.switch s on

/-- The field of the switch of a source. -/
def switchField (s : Source) : FieldReader SourcePolicy :=
  ⟨switchName s, fun d p => do .ok (setSwitch s (← d.asBool) p)⟩

theorem fields_layout : layout.fields = switched.map switchField := rfl

theorem fieldNames_layout : fieldNames layout.fields = switchNames := rfl

theorem sets_switchField (s : Source) : (switchField s).Sets Doc.IsBool (setSwitch s) :=
  sets_of_decode (fun _ _ => Doc.asBool_eq_ok_iff) (switchName s) (setSwitch s)

theorem looks_switchField (s : Source) : (switchField s).Looks := by
  apply (sets_switchField s).looks
  rintro d on rfl
  trivial

theorem apart_switchField {s t : Source} (h : s ≠ t) : Apart (switchField s) (switchField t) :=
  (sets_switchField s).apart (sets_switchField t) (fun hname => h (switchName_injective hname))
    fun on on' p => switch_comm h p on on'

theorem pairwise_apart : layout.fields.Pairwise Apart := by
  have hnodup : switched.Pairwise (· ≠ ·) := by decide
  rw [fields_layout]
  exact hnodup.map switchField fun s t => apart_switchField

theorem looks_layout : ∀ f ∈ layout.fields, f.Looks := by
  rw [fields_layout, List.forall_mem_map]
  exact fun s _ => looks_switchField s

/-! ## Policies -/

theorem accepts_setSwitch_self {s : Source} (h : s ≠ .persistent) (on : Bool) (p : SourcePolicy) :
    (setSwitch s on p).accepts s = on := by
  rw [setSwitch, accepts_switch, if_pos ⟨rfl, h⟩]

theorem accepts_setSwitch_of_ne {s t : Source} (h : t ≠ s) (on : Bool) (p : SourcePolicy) :
    (setSwitch s on p).accepts t = p.accepts t := by
  rw [setSwitch, accepts_switch, if_neg fun heq => h heq.1]

/-- The switches of some sources are filled: each is as it is given, or else as it was, and all others are as they
were. -/
theorem filled_switches {given : String → List Doc} {sources : List Source} (hnodup : sources.Nodup)
    (hnamed : ∀ s ∈ sources, s ≠ .persistent) {p q : SourcePolicy} :
    Filled given (sources.map switchField) p q ↔
      (∀ s ∈ sources, AtMostOnce Doc.IsBool (p.accepts s) (given (switchName s)) (q.accepts s)) ∧
        ∀ s, s ∉ sources → q.accepts s = p.accepts s := by
  induction sources generalizing p with
  | nil =>
    constructor
    · rintro rfl
      exact ⟨fun s hs => (nomatch hs), fun s _ => rfl⟩
    · rintro ⟨-, hsame⟩
      exact eq_of_accepts fun s _ => hsame s List.not_mem_nil
  | cons s sources ih =>
    obtain ⟨hs, hnodup⟩ := List.nodup_cons.mp hnodup
    obtain ⟨hsome, hnamed⟩ := List.forall_mem_cons.mp hnamed
    have hne : ∀ t ∈ sources, t ≠ s := fun t ht heq => hs (heq ▸ ht)
    constructor
    · rintro ⟨m, hfill, hfilled⟩
      obtain ⟨on, hon, rfl⟩ := ((sets_switchField s).fills_iff (switch_accepts p s)).mp hfill
      obtain ⟨hgiven, hsame⟩ := (ih hnodup hnamed).mp hfilled
      -- what comes later leaves the first switch alone
      have hself : q.accepts s = on := (hsame s hs).trans (accepts_setSwitch_self hsome on p)
      refine ⟨List.forall_mem_cons.mpr ⟨hself ▸ hon, ?_⟩, ?_⟩
      · intro t ht
        have htgiven := hgiven t ht
        rwa [accepts_setSwitch_of_ne (hne t ht)] at htgiven
      · intro t ht
        obtain ⟨htne, ht⟩ := List.ne_and_not_mem_of_not_mem_cons ht
        exact (hsame t ht).trans (accepts_setSwitch_of_ne htne on p)
    · rintro ⟨hgiven, hsame⟩
      obtain ⟨hfirst, hgiven⟩ := List.forall_mem_cons.mp hgiven
      have hfill := ((sets_switchField s).fills_iff (switch_accepts p s)).mpr ⟨q.accepts s, hfirst, rfl⟩
      refine ⟨setSwitch s (q.accepts s) p, hfill, (ih hnodup hnamed).mpr ⟨?_, ?_⟩⟩
      · intro t ht
        rw [accepts_setSwitch_of_ne (hne t ht)]
        exact hgiven t ht
      · intro t ht
        by_cases heq : t = s
        · rw [heq, accepts_setSwitch_self hsome]
        · rw [accepts_setSwitch_of_ne heq]
          exact hsame t (List.not_mem_cons_of_ne_of_not_mem heq ht)

theorem filled_iff {given : String → List Doc} {p : SourcePolicy} : Filled given layout.fields {} p ↔ Given given p := by
  have hnamed : ∀ s ∈ switched, s ≠ .persistent := fun s => mem_switched.mp
  rw [fields_layout, filled_switches (by decide) hnamed]
  constructor
  · rintro ⟨hgiven, -⟩ s hs
    have hsgiven := hgiven s (mem_switched.mpr hs)
    rwa [accepts_default hs] at hsgiven
  · intro hgiven
    refine ⟨?_, ?_⟩
    · intro s hs
      rw [accepts_default (hnamed s hs)]
      exact hgiven s (hnamed s hs)
    · intro s hs
      -- only the persistent source has no switch, and it is never accepted
      obtain rfl : s = .persistent := Decidable.not_not.mp fun h => hs (mem_switched.mpr h)
      rfl

/-- **A policy is read from a record of switches.** -/
theorem readInPlace_eq_ok_iff {d : Doc} {p : SourcePolicy} :
    layout.readInPlace {} d = .ok p ↔ d.Records switchNames Given p := by
  rw [layout.readInPlace_eq_ok_iff pairwise_apart looks_layout, fieldNames_layout]
  exact and_congr_right fun _ => and_congr_right fun _ => filled_iff

/-- Where nothing is given, every source is accepted. -/
theorem given_nothing_iff {p : SourcePolicy} : Given (fun _ => []) p ↔ p = {} := by
  constructor
  · intro h
    apply eq_of_accepts
    intro s hs
    rw [accepts_default hs]
    rcases h s hs with ⟨-, hdefault⟩ | ⟨d, hd, -⟩
    · exact hdefault
    · cases hd
  · rintro rfl s hs
    exact .inl ⟨rfl, accepts_default hs⟩

end SourcePolicy

namespace Settings

/-! ## The capacity -/

/-- The field of the capacity. -/
def capacityField : FieldReader Nat := ⟨"event_channel_capacity", fun d _ => d.asCount⟩

theorem fields_engineLayout : engineLayout.fields = [capacityField] := rfl

theorem fieldNames_engineLayout : fieldNames engineLayout.fields = engineNames := rfl

theorem sets_capacityField : capacityField.Sets Doc.IsCount fun n _ => n := by
  intro d n n'
  show d.asCount = .ok n' ↔ ∃ a, d.IsCount a ∧ n' = a
  rw [Doc.asCount_eq_ok_iff]
  simp

theorem looks_capacityField : capacityField.Looks := by
  apply sets_capacityField.looks
  rintro d n ⟨digits, rfl, -⟩
  trivial

/-- **A capacity is read from a record that gives one, or else is the default.** -/
theorem readCapacity_eq_ok_iff {d : Doc} {n : Nat} :
    engineLayout.readInPlace ({} : Settings).capacity d = .ok n ↔ d.Records engineNames CapacityGiven n := by
  have hlooks : ∀ f ∈ engineLayout.fields, f.Looks := List.forall_mem_singleton.mpr looks_capacityField
  have hfilled : ∀ given, Filled given engineLayout.fields 1000 n ↔ CapacityGiven given n := by
    intro given
    rw [fields_engineLayout]
    constructor
    · rintro ⟨_, hfill, rfl⟩
      obtain ⟨m, hm, rfl⟩ := (sets_capacityField.fills_iff rfl).mp hfill
      exact hm
    · intro h
      exact ⟨n, (sets_capacityField.fills_iff rfl).mpr ⟨n, h, rfl⟩, rfl⟩
  rw [engineLayout.readInPlace_eq_ok_iff (List.pairwise_singleton _ _) hlooks, fieldNames_engineLayout]
  exact and_congr_right fun _ => and_congr_right fun _ => hfilled _

/-- Where nothing is given, the capacity is the default. -/
theorem capacityGiven_nothing_iff {n : Nat} : CapacityGiven (fun _ => []) n ↔ n = 1000 := by
  simp [CapacityGiven, AtMostOnce, Once]

/-! ## The parts -/

/-- Sets which sources are accepted. -/
def setSources (p : SourcePolicy) (s : Settings) : Settings := { s with sources := p }

/-- Sets the capacity. -/
def setCapacity (n : Nat) (s : Settings) : Settings := { s with capacity := n }

/-- The field of the sources. -/
def sourcesField : FieldReader Settings :=
  ⟨"runtime_sources", fun d s => do .ok (setSources (← SourcePolicy.layout.readInPlace {} d) s)⟩

/-- The field of the settings of the notices. -/
def engineField : FieldReader Settings :=
  ⟨"engine", fun d s => do .ok (setCapacity (← engineLayout.readInPlace ({} : Settings).capacity d) s)⟩

theorem fields_layout : layout.fields = [sourcesField, engineField] := rfl

theorem fieldNames_layout : fieldNames layout.fields = partNames := rfl

theorem sets_sourcesField :
    sourcesField.Sets (Doc.Records SourcePolicy.switchNames SourcePolicy.Given) setSources :=
  sets_of_decode (fun _ _ => SourcePolicy.readInPlace_eq_ok_iff) "runtime_sources" setSources

theorem sets_engineField : engineField.Sets (Doc.Records engineNames CapacityGiven) setCapacity :=
  sets_of_decode (fun _ _ => readCapacity_eq_ok_iff) "engine" setCapacity

theorem pairwise_apart : layout.fields.Pairwise Apart := by
  have hapart : Apart sourcesField engineField := sets_sourcesField.apart sets_engineField (by decide) fun _ _ _ => rfl
  rw [fields_layout]
  exact List.pairwise_pair.mpr hapart

theorem looks_layout : ∀ f ∈ layout.fields, f.Looks := by
  rw [fields_layout]
  rintro f (_ | ⟨_, _ | ⟨_, ⟨⟩⟩⟩)
  · exact sets_sourcesField.looks fun _ _ h => h.1
  · exact sets_engineField.looks fun _ _ h => h.1

theorem filled_iff {given : String → List Doc} {s : Settings} : Filled given layout.fields {} s ↔
    AtMostOnce (Doc.Records SourcePolicy.switchNames SourcePolicy.Given) {} (given "runtime_sources") s.sources ∧
      AtMostOnce (Doc.Records engineNames CapacityGiven) 1000 (given "engine") s.capacity := by
  rw [fields_layout]
  constructor
  · rintro ⟨_, hfirst, _, hsecond, rfl⟩
    obtain ⟨p, hp, rfl⟩ := (sets_sourcesField.fills_iff rfl).mp hfirst
    obtain ⟨n, hn, rfl⟩ := (sets_engineField.fills_iff rfl).mp hsecond
    exact ⟨hp, hn⟩
  · rintro ⟨hsources, hcapacity⟩
    refine ⟨_, (sets_sourcesField.fills_iff rfl).mpr ⟨s.sources, hsources, rfl⟩, ?_⟩
    exact ⟨_, (sets_engineField.fills_iff rfl).mpr ⟨s.capacity, hcapacity, rfl⟩, rfl⟩

/-- **Settings are read from the documents of their form.** -/
theorem readInPlace_eq_ok_iff {d : Doc} {s : Settings} :
    layout.readInPlace {} d = .ok s ↔ d.Complete ∧ d.IsSettings s := by
  rw [layout.readInPlace_eq_ok_iff pairwise_apart looks_layout, fieldNames_layout, Doc.Records, filled_iff]
  refine and_congr_right fun hc => ?_
  have hcomplete (name : String) : ∀ e ∈ d.given partNames name, e.Complete := fun _ => complete_of_mem_given hc
  rw [atMostOnce_record_iff SourcePolicy.given_nothing_iff (hcomplete "runtime_sources"),
    atMostOnce_record_iff capacityGiven_nothing_iff (hcomplete "engine")]
  constructor
  · rintro ⟨hparts, ⟨hsources, haccepts⟩, hengine, hcapacity⟩
    exact ⟨hparts, hsources, hengine, haccepts, hcapacity⟩
  · rintro ⟨hparts, hsources, hengine, haccepts, hcapacity⟩
    exact ⟨hparts, ⟨hsources, haccepts⟩, hengine, hcapacity⟩

end Settings

end ClientRoster
