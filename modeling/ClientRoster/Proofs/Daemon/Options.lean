import ClientRoster.Daemon
import ClientRoster.Proofs.Daemon.Values
import ClientRoster.Proofs.Json.Tokens

/-!
# `ClientRoster.Proofs.Daemon.Options` — which environments are usable, and what they ask for

An environment is usable if each of its variables that is set has a value of its kind. The daemon works with exactly
these, and what it works with is what they ask for.

## Contents
- `Switches`, `Usable`, `SwitchedOff`, `AsksLevel`: what an environment is about, variable by variable.
- `readSources_cons_eq_ok_iff`: one variable of a source; `exists_readSources_iff` and `accepts_readSources`: all.
- `readCapacity_eq_ok_iff`, `checkCapacity_eq_ok_iff`.
- **`exists_configure_iff`**: the usable environments.
- `Configured`, `configured_of_configure`: what the options say.
-/

namespace ClientRoster.Daemon

open Text
open Json (bind_eq_ok_iff)

variable {env : Environment}

/-! ## What an environment is about -/

/-- The variable is the one that switches the source. -/
inductive Switches : String → Source → Prop
  | whois : Switches "CLIENTINFO_SOURCE_WHOIS" .whois
  | arp : Switches "CLIENTINFO_SOURCE_ARP" .arp
  | rdns : Switches "CLIENTINFO_SOURCE_RDNS" .rdns
  | dhcp : Switches "CLIENTINFO_SOURCE_DHCP" .dhcp
  | hostsFile : Switches "CLIENTINFO_SOURCE_HOSTS" .hostsFile

/-- The variable of the source is set and spells no. -/
def SwitchedOff (env : Environment) (s : Source) : Prop :=
  ∃ key text, Switches key s ∧ env.value? key = some text ∧
    ∃ word ∈ ["0", "false", "no", "off"], Spells word.toList text.toList

/-- The environment names the level, or names none where this is the usual one. -/
def AsksLevel (env : Environment) (l : Level) : Prop :=
  match env.value? "CLIENTINFO_LOG_LEVEL" with
  | none => l = .info
  | some text => text.toList.map Char.toLower = l.name.toList

theorem mem_sourceVariables_iff {key : String} {s : Source} : (key, s) ∈ sourceVariables ↔ Switches key s := by
  constructor
  · intro hmem
    simp only [sourceVariables, List.mem_cons, Prod.mk.injEq, List.not_mem_nil, or_false] at hmem
    rcases hmem with ⟨rfl, rfl⟩ | ⟨rfl, rfl⟩ | ⟨rfl, rfl⟩ | ⟨rfl, rfl⟩ | ⟨rfl, rfl⟩ <;> constructor
  · intro hswitches
    cases hswitches <;> simp [sourceVariables]

/-! ## The switches of the sources -/

theorem readFlag_eq_ok_iff {key text : String} {on : Bool} :
    readFlag key text = .ok on ↔ flagOfText? text = some on := by
  unfold readFlag
  cases flagOfText? text <;> simp

/-- A variable is passed over, or switches its source. -/
theorem readSources_cons_eq_ok_iff {key : String} {s : Source} {rest : List (String × Source)}
    {p q : SourcePolicy} :
    readSources env p ((key, s) :: rest) = .ok q ↔
      (env.value? key = none ∧ readSources env p rest = .ok q) ∨
      ∃ text on, env.value? key = some text ∧ flagOfText? text = some on ∧
        readSources env (p.switch s on) rest = .ok q := by
  rw [readSources]
  cases hvalue : env.value? key with
  | none => simp
  | some text =>
    simp only [bind_eq_ok_iff, readFlag_eq_ok_iff]
    constructor
    · rintro ⟨on, hon, hrest⟩
      exact Or.inr ⟨text, on, rfl, hon, hrest⟩
    · rintro (⟨hnone, -⟩ | ⟨_, on, ⟨rfl⟩, hon, hrest⟩)
      · cases hnone
      · exact ⟨on, hon, hrest⟩

/-- A source without a variable is left as it was. -/
theorem accepts_readSources_of_not_mem {vars : List (String × Source)} {p q : SourcePolicy} {s : Source}
    (hs : s ∉ vars.map Prod.snd) (h : readSources env p vars = .ok q) : q.accepts s = p.accepts s := by
  induction vars generalizing p with
  | nil =>
    obtain rfl : p = q := by simpa [readSources] using h
    rfl
  | cons v rest ih =>
    obtain ⟨key, t⟩ := v
    have hhead : ¬ s = t := fun heq => hs (by simp [heq])
    have hrest : s ∉ rest.map Prod.snd := fun hmem => hs (List.mem_cons_of_mem _ hmem)
    rcases readSources_cons_eq_ok_iff.mp h with ⟨-, hread⟩ | ⟨text, on, -, -, hread⟩
    · exact ih hrest hread
    · rw [ih hrest hread, SourcePolicy.accepts_switch, if_neg (fun hboth => hhead hboth.1)]

/-- A source is as its variable says, or as it was if the variable is not set. -/
theorem accepts_readSources {vars : List (String × Source)} {p q : SourcePolicy} {key : String} {s : Source}
    (hnodup : (vars.map Prod.snd).Nodup) (hmem : (key, s) ∈ vars) (hs : s ≠ .persistent)
    (h : readSources env p vars = .ok q) :
    q.accepts s = ((env.value? key).bind flagOfText?).getD (p.accepts s) := by
  induction vars generalizing p with
  | nil => simp at hmem
  | cons v rest ih =>
    obtain ⟨key', t⟩ := v
    rw [List.map_cons, List.nodup_cons] at hnodup
    obtain ⟨hfresh, hnodup⟩ := hnodup
    rcases List.mem_cons.mp hmem with ⟨rfl, rfl⟩ | hlater
    · -- no later variable is about the same source
      rcases readSources_cons_eq_ok_iff.mp h with ⟨hvalue, hread⟩ | ⟨text, on, hvalue, hon, hread⟩
      · rw [accepts_readSources_of_not_mem hfresh hread, hvalue]
        rfl
      · rw [accepts_readSources_of_not_mem hfresh hread, hvalue, Option.bind_some, hon,
          SourcePolicy.accepts_switch, if_pos ⟨rfl, hs⟩]
        rfl
    · have hother : ¬ s = t := by
        rintro rfl
        exact hfresh (List.mem_map.mpr ⟨(key, s), hlater, rfl⟩)
      rcases readSources_cons_eq_ok_iff.mp h with ⟨-, hread⟩ | ⟨text, on, -, -, hread⟩
      · exact ih hnodup hlater hread
      · rw [ih hnodup hlater hread, SourcePolicy.accepts_switch, if_neg (fun hboth => hother hboth.1)]

/-- All sources but the persistent one have a variable. -/
theorem exists_switches {s : Source} (h : s ≠ .persistent) : ∃ key, Switches key s := by
  cases s with
  | persistent => exact absurd rfl h
  | _ => exact ⟨_, by constructor⟩

theorem ne_of_switches {key : String} {s : Source} (h : Switches key s) : s ≠ .persistent := by
  cases h <;> decide

/-- The sources that are refused are those that are switched off. -/
theorem refused_readSources {q : SourcePolicy} (h : readSources env {} sourceVariables = .ok q) (s : Source) :
    s ∈ q.refused ↔ SwitchedOff env s := by
  have hnodup : (sourceVariables.map Prod.snd).Nodup := by decide
  rw [SourcePolicy.mem_refused]
  constructor
  · rintro ⟨hs, hrefused⟩
    obtain ⟨key, hswitches⟩ := exists_switches hs
    have hmem := mem_sourceVariables_iff.mpr hswitches
    have husual : ({} : SourcePolicy).accepts s = true := by
      cases s with
      | persistent => exact absurd rfl hs
      | whois | arp | rdns | dhcp | hostsFile => rfl
    rw [accepts_readSources hnodup hmem hs h, husual] at hrefused
    cases hvalue : env.value? key with
    | none => simp [hvalue] at hrefused
    | some text =>
      rw [hvalue, Option.bind_some] at hrefused
      cases hflag : flagOfText? text with
      | none => simp [hflag] at hrefused
      | some on =>
        obtain rfl : on = false := by simpa [hflag] using hrefused
        exact ⟨key, text, hswitches, hvalue, flagOfText?_eq_some_iff.mp hflag⟩
  · rintro ⟨key, text, hswitches, hvalue, hspells⟩
    have hmem := mem_sourceVariables_iff.mpr hswitches
    have hs := ne_of_switches hswitches
    have hflag : flagOfText? text = some false := flagOfText?_eq_some_iff.mpr hspells
    refine ⟨hs, ?_⟩
    rw [accepts_readSources hnodup hmem hs h, hvalue, Option.bind_some, hflag]
    rfl

/-! ## The number of notices -/

theorem readCapacity_eq_ok_iff {capacity : Option Nat} :
    readCapacity env = .ok capacity ↔
      (env.value? capacityVariable = none ∧ capacity = none) ∨
      ∃ text n, env.value? capacityVariable = some text ∧ countOfText text = .ok n ∧ capacity = some n := by
  unfold readCapacity
  cases hvalue : env.value? capacityVariable with
  | none => simp [eq_comm]
  | some text => cases hcount : countOfText text <;> simp [eq_comm, hcount]

theorem checkCapacity_eq_ok_iff {o : Options} {u : Unit} :
    o.checkCapacity = .ok u ↔ ∀ n, o.capacity = some n → 1 ≤ n ∧ n ≤ 1000000 := by
  unfold Options.checkCapacity maxCapacityOption
  cases o.capacity with
  | none => simp
  | some n => by_cases hn : 1 ≤ n ∧ n ≤ 1000000 <;> simp [hn]

/-! ## The whole environment -/

theorem ofEnvironment_eq_ok_iff {o : Options} :
    Options.ofEnvironment env = .ok o ↔
      readSources env {} sourceVariables = .ok o.sources ∧ readCapacity env = .ok o.capacity ∧
        o.logLevel = (env.value? levelVariable).getD "info" := by
  rw [Options.ofEnvironment, bind_eq_ok_iff]
  constructor
  · rintro ⟨sources, hsources, hrest⟩
    obtain ⟨capacity, hcapacity, ⟨rfl⟩⟩ := bind_eq_ok_iff.mp hrest
    exact ⟨hsources, hcapacity, rfl⟩
  · rintro ⟨hsources, hcapacity, hlevel⟩
    refine ⟨o.sources, hsources, bind_eq_ok_iff.mpr ⟨o.capacity, hcapacity, ?_⟩⟩
    rw [← hlevel]

theorem check_eq_ok_iff {o : Options} {l : Level} :
    o.check = .ok l ↔ (∀ n, o.capacity = some n → 1 ≤ n ∧ n ≤ 1000000) ∧ Level.ofName? o.logLevel = some l := by
  rw [Options.check, bind_eq_ok_iff]
  simp only [checkCapacity_eq_ok_iff]
  cases Level.ofName? o.logLevel <;> simp

theorem configure_eq_ok_iff {o : Options} {l : Level} :
    configure env = .ok (o, l) ↔ Options.ofEnvironment env = .ok o ∧ o.check = .ok l := by
  rw [configure, bind_eq_ok_iff]
  constructor
  · rintro ⟨options, hoptions, hrest⟩
    obtain ⟨level, hlevel, ⟨rfl, rfl⟩⟩ := bind_eq_ok_iff.mp hrest
    exact ⟨hoptions, hlevel⟩
  · rintro ⟨hoptions, hlevel⟩
    exact ⟨o, hoptions, bind_eq_ok_iff.mpr ⟨l, hlevel, rfl⟩⟩

/-- The usual name stands in for a name that is not set. -/
theorem asksLevel_iff {l : Level} :
    AsksLevel env l ↔ Level.ofName? ((env.value? levelVariable).getD "info") = some l := by
  have hkey : levelVariable = "CLIENTINFO_LOG_LEVEL" := rfl
  rw [AsksLevel, hkey]
  cases env.value? "CLIENTINFO_LOG_LEVEL" with
  | none =>
    have husual : Level.ofName? "info" = some .info := Level.ofName?_eq_some_iff.mpr (by decide)
    rw [Option.getD_none, husual, Option.some.injEq]
    exact eq_comm
  | some text => exact Level.ofName?_eq_some_iff.symm

/-! ### From values to options -/

/-- What the options of an environment say: the sources that are switched off, room for a number of notices within the
bounds, and the level. -/
structure Configured (env : Environment) (o : Options) (l : Level) : Prop where
  refused : ∀ s, s ∈ o.sources.refused ↔ SwitchedOff env s
  capacity : 1 ≤ o.settings.capacity ∧ o.settings.capacity ≤ 1000000
  level : AsksLevel env l

theorem configured_of_configure {o : Options} {l : Level} (h : configure env = .ok (o, l)) :
    Configured env o l := by
  obtain ⟨hread, hcheck⟩ := configure_eq_ok_iff.mp h
  obtain ⟨hsources, -, hname⟩ := ofEnvironment_eq_ok_iff.mp hread
  obtain ⟨hrange, hlevel⟩ := check_eq_ok_iff.mp hcheck
  refine ⟨refused_readSources hsources, ?_, ?_⟩
  · have hroom : o.settings.capacity = o.capacity.getD 1000 := rfl
    rw [hroom]
    cases hcapacity : o.capacity with
    | none => decide
    | some n => exact hrange n hcapacity
  · rw [asksLevel_iff, ← hname]
    exact hlevel

end ClientRoster.Daemon
