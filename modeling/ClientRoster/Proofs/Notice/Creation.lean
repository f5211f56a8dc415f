import ClientRoster.Proofs.Notice.Listening
import ClientRoster.Proofs.Settings.Text

/-!
# `ClientRoster.Proofs.Notice.Creation` — for which settings there is a queue

Settings are checked before their queue is made, but the check looks at the lower end of the capacities alone. A capacity
of 64 bits can be larger than any queue, and such settings are read and pass the check; making their queue aborts the
program.

## Contents
- `create_eq_refused_iff`, `create_eq_tooLarge_iff`, `create_eq_ok_iff`: the three outcomes.
- `CheckDecides`, **`checkDecides_ofText_iff`**: for which settings the check keeps its promise.
- `exists_tooLarge_iff`: the capacities at which the program is aborted.
-/

namespace ClientRoster

namespace Settings

theorem check_eq_ok_iff {s : Settings} : s.check = .ok () ↔ s.capacity ≠ 0 := by
  unfold check
  split
  · next h => simp [h]
  · next h => simp [h]

end Settings

namespace NoticeQueue

/-! ## The three outcomes -/

theorem check_of_large {s : Settings} (h : maxCapacity < s.capacity) : s.check = .ok () :=
  Settings.check_eq_ok_iff.mpr (Nat.ne_of_gt (Nat.zero_lt_of_lt h))

theorem create_of_check {s : Settings} (h : s.check = .ok ()) :
    create s = if s.capacity ≤ maxCapacity then .ok { capacity := s.capacity } else .error (.tooLarge s.capacity) := by
  rw [create, h]

theorem create_of_failure {s : Settings} {failure : Failure} (h : s.check = .error failure) :
    create s = .error (.refused failure) := by
  rw [create, h]

/-- Settings are refused as their check says. -/
theorem create_eq_refused_iff {s : Settings} {failure : Failure} :
    create s = .error (.refused failure) ↔ s.check = .error failure := by
  constructor
  · intro h
    cases hcheck : s.check with
    | error failure' =>
      rw [create_of_failure hcheck] at h
      cases h
      rfl
    | ok =>
      rw [create_of_check hcheck] at h
      split at h <;> cases h
  · exact create_of_failure

/-- The program is aborted beyond the largest queue. -/
theorem create_eq_tooLarge_iff {s : Settings} {n : Nat} :
    create s = .error (.tooLarge n) ↔ s.capacity = n ∧ maxCapacity < n := by
  constructor
  · intro h
    cases hcheck : s.check with
    | error failure =>
      rw [create_of_failure hcheck] at h
      cases h
    | ok =>
      rw [create_of_check hcheck] at h
      split at h
      · cases h
      · next hlarge =>
        cases h
        exact ⟨rfl, Nat.not_le.mp hlarge⟩
  · rintro ⟨rfl, hlarge⟩
    rw [create_of_check (check_of_large hlarge), if_neg (Nat.not_le.mpr hlarge)]

/-- Between the two ends there is a queue of the capacity that the settings ask for. -/
theorem create_eq_ok_iff {s : Settings} {q : NoticeQueue} :
    create s = .ok q ↔ s.check = .ok () ∧ s.capacity ≤ maxCapacity ∧ q = { capacity := s.capacity } := by
  constructor
  · intro h
    have hq := eq_of_create h
    cases hcheck : s.check with
    | error failure =>
      rw [create_of_failure hcheck] at h
      cases h
    | ok =>
      rw [create_of_check hcheck] at h
      split at h
      · next hfits => exact ⟨rfl, hfits, hq⟩
      · cases h
  · rintro ⟨hcheck, hfits, rfl⟩
    rw [create_of_check hcheck, if_pos hfits]

/-! ## Settings that were read -/

/-- The check decides whether there is a queue: what it refuses is refused in its words, and for what it passes there is
a queue, with room for as many notices as the settings say. -/
structure CheckDecides (s : Settings) : Prop where
  refused : ∀ failure, create s = .error (.refused failure) ↔ s.check = .error failure
  made : s.check = .ok () → ∃ q, create s = .ok q ∧ q.capacity = s.capacity ∧
    ∀ notices, (q.offerAll notices).waiting = notices.take s.capacity

theorem checkDecides_of_le {s : Settings} (h : s.capacity ≤ maxCapacity) : CheckDecides s := by
  refine ⟨fun failure => create_eq_refused_iff, ?_⟩
  intro hcheck
  have hmade : create s = .ok { capacity := s.capacity } := create_eq_ok_iff.mpr ⟨hcheck, h, rfl⟩
  exact ⟨_, hmade, rfl, fun notices => waiting_offerAll rfl notices⟩

theorem not_checkDecides_of_lt {s : Settings} (h : maxCapacity < s.capacity) : ¬ CheckDecides s := by
  intro hdecides
  obtain ⟨q, hq, -⟩ := hdecides.made (check_of_large h)
  obtain ⟨-, hfits, -⟩ := create_eq_ok_iff.mp hq
  exact absurd h (Nat.not_lt.mpr hfits)

/-- **For settings that were read, the check decides up to the largest queue.** Beyond it, up to the end of the 64 bits,
it passes settings at which the program is aborted. -/
theorem checkDecides_ofText_iff {text : String} {s : Settings} (h : Settings.ofText text = .ok s) :
    (CheckDecides s ↔ s.capacity ≤ maxCapacity) ∧
    (maxCapacity < s.capacity ↔ s.check = .ok () ∧ create s = .error (.tooLarge s.capacity)) ∧
    s.capacity < UInt64.size := by
  refine ⟨⟨?_, checkDecides_of_le⟩, ⟨?_, ?_⟩, Settings.capacity_lt_of_ofText h⟩
  · intro hdecides
    exact Nat.not_lt.mp fun hlarge => not_checkDecides_of_lt hlarge hdecides
  · intro hlarge
    exact ⟨check_of_large hlarge, create_eq_tooLarge_iff.mpr ⟨rfl, hlarge⟩⟩
  · rintro ⟨-, hcreate⟩
    exact (create_eq_tooLarge_iff.mp hcreate).2

/-- A text that asks for a queue of this capacity. -/
def capacityText (n : Nat) : String := (Settings.toDoc { capacity := n }).render

theorem checkDecides_ofText_iff_largest :
    Settings.ofText (capacityText maxCapacity) = .ok { capacity := maxCapacity } ∧
      CheckDecides { capacity := maxCapacity } := by
  have hread : Settings.ofText (capacityText maxCapacity) = .ok { capacity := maxCapacity } :=
    Settings.ofText_render (by decide)
  exact ⟨hread, (checkDecides_ofText_iff hread).1.mpr (Nat.le_refl maxCapacity)⟩

/-- One place more than in the largest queue, and the check does not decide. -/
theorem not_forall_checkDecides : ¬ ∀ text s, Settings.ofText text = .ok s → CheckDecides s := by
  intro hall
  have hread : Settings.ofText (capacityText (maxCapacity + 1)) = .ok { capacity := maxCapacity + 1 } :=
    Settings.ofText_render (by decide)
  exact not_checkDecides_of_lt (Nat.lt_succ_self maxCapacity) (hall _ _ hread)

/-- **Any capacity of 64 bits beyond the largest queue can be asked for,** and these are the ones at which the program is
aborted. -/
theorem exists_tooLarge_iff {n : Nat} :
    (∃ text s, Settings.ofText text = .ok s ∧ create s = .error (.tooLarge n)) ↔
      maxCapacity < n ∧ n < UInt64.size := by
  constructor
  · rintro ⟨text, s, hread, hcreate⟩
    obtain ⟨rfl, hlarge⟩ := create_eq_tooLarge_iff.mp hcreate
    exact ⟨hlarge, Settings.capacity_lt_of_ofText hread⟩
  · rintro ⟨hlarge, hlt⟩
    exact ⟨_, { capacity := n }, Settings.ofText_render hlt, create_eq_tooLarge_iff.mpr ⟨rfl, hlarge⟩⟩

end NoticeQueue

end ClientRoster
