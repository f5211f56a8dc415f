import ClientRoster.Json.Numeral
import Mathlib.Tactic.Ring

/-!
# `ClientRoster.Proofs.Json.Significand` — the digits that a value is made of

The value of a numeral is made of its leading digits, as many as fit into 64 bits, and of a power of ten that stands for
the others. What the digits left out could add is less than ten units of the number that is taken.

Digits behind the point are tried even after a digit before it did not fit. Such a digit may fit after all, in the place
of a larger one; it is the last that does, and the bound still holds.

## Contents
- `decimalFrom`, `AllDigits`: the number that digits write.
- `takeWhole_cases`, `takeFraction_eq`: which digits are taken; `Overfull`: when one does not fit.
- `Taken`: what is taken and what is left out; `taken_takeWhole`, `Overfull.taken_takeWhole`.
- **`Numeral.exists_taken`: what is taken of a numeral**, its `significand` and `scale`.
-/

namespace ClientRoster.Json

/-! ## Digits -/

/-- The number that digits write behind those of another number. -/
def decimalFrom (high : ℕ) (digits : List Char) : ℕ := digits.foldl (fun n c => n * 10 + digitValue c) high

theorem natOfDecimal_append (front back : List Char) :
    natOfDecimal (front ++ back) = decimalFrom (natOfDecimal front) back := List.foldl_append

/-- All characters are decimal digits. -/
def AllDigits (cs : List Char) : Prop := ∀ c ∈ cs, c.isDigit = true

theorem allDigits_cons {c : Char} {cs : List Char} : AllDigits (c :: cs) ↔ c.isDigit = true ∧ AllDigits cs :=
  List.forall_mem_cons

theorem allDigits_append {cs ds : List Char} : AllDigits (cs ++ ds) ↔ AllDigits cs ∧ AllDigits ds :=
  List.forall_mem_append

theorem digitValue_le {c : Char} (h : c.isDigit = true) : digitValue c ≤ 9 := by
  simp only [Char.isDigit, Bool.and_eq_true, decide_eq_true_eq] at h
  have hhigh : c.toNat ≤ '9'.toNat := h.2
  have hnine : '9'.toNat = 57 := rfl
  have hzero : '0'.toNat = 48 := rfl
  unfold digitValue
  omega

theorem le_decimalFrom (high : ℕ) (digits : List Char) : high * 10 ^ digits.length ≤ decimalFrom high digits := by
  induction digits generalizing high with
  | nil => exact Nat.le_of_eq (Nat.mul_one high)
  | cons c digits ih =>
    calc high * 10 ^ (digits.length + 1) = high * 10 * 10 ^ digits.length := by rw [pow_succ]; ring
      _ ≤ (high * 10 + digitValue c) * 10 ^ digits.length := Nat.mul_le_mul_right _ (Nat.le_add_right _ _)
      _ ≤ decimalFrom high (c :: digits) := ih _

theorem decimalFrom_lt {digits : List Char} (h : AllDigits digits) (high : ℕ) :
    decimalFrom high digits < (high + 1) * 10 ^ digits.length := by
  induction digits generalizing high with
  | nil => exact (Nat.mul_one (high + 1)).symm ▸ Nat.lt_succ_self high
  | cons c digits ih =>
    obtain ⟨hc, hdigits⟩ := allDigits_cons.mp h
    have hdigit := digitValue_le hc
    calc decimalFrom high (c :: digits) < (high * 10 + digitValue c + 1) * 10 ^ digits.length := ih hdigits _
      _ ≤ ((high + 1) * 10) * 10 ^ digits.length := Nat.mul_le_mul_right _ (by omega)
      _ = (high + 1) * 10 ^ (digits.length + 1) := by rw [pow_succ]; ring

/-! ## The significand -/

section

variable {s : ℕ} {c : Char} {digits : List Char}

theorem takeWhole_cons_of_lt (h : s * 10 + digitValue c < UInt64.size) :
    takeWhole s (c :: digits) = takeWhole (s * 10 + digitValue c) digits := if_pos h

theorem takeWhole_cons_of_le (h : UInt64.size ≤ s * 10 + digitValue c) :
    takeWhole s (c :: digits) = (s, digits.length + 1) := if_neg (Nat.not_lt.mpr h)

/-- No digit fits behind a number that is too large for one. -/
theorem takeWhole_of_full (h : UInt64.size ≤ s * 10) (digits : List Char) :
    takeWhole s digits = (s, digits.length) := by
  cases digits with
  | nil => rfl
  | cons c digits => exact takeWhole_cons_of_le (Nat.le_add_right_of_le h)

theorem takeWhole_dropped_le (s : ℕ) (digits : List Char) : (takeWhole s digits).2 ≤ digits.length := by
  induction digits generalizing s with
  | nil => exact Nat.le_refl 0
  | cons c digits ih =>
    rcases Nat.lt_or_ge (s * 10 + digitValue c) UInt64.size with hnext | hnext
    · rw [takeWhole_cons_of_lt hnext]
      exact Nat.le_succ_of_le (ih _)
    · rw [takeWhole_cons_of_le hnext, List.length_cons]

/-- Digits behind the point are taken as those before it; counted are the taken ones in place of those left out. -/
theorem takeFraction_eq (s : ℕ) (digits : List Char) :
    takeFraction s digits = ((takeWhole s digits).1, digits.length - (takeWhole s digits).2) := by
  induction digits generalizing s with
  | nil => rfl
  | cons c digits ih =>
    unfold takeFraction
    rcases Nat.lt_or_ge (s * 10 + digitValue c) UInt64.size with hnext | hnext
    · simp only [if_pos hnext, takeWhole_cons_of_lt hnext, ih]
      rw [List.length_cons, Nat.succ_sub (takeWhole_dropped_le _ digits)]
    · simp only [if_neg (Nat.not_lt.mpr hnext), takeWhole_cons_of_le hnext, List.length_cons, Nat.sub_self]

/-- The digits of `n` are left out from the first on that does not fit into 64 bits: there are `dropped + 1` of them,
behind those that make `taken`. -/
structure Overfull (taken dropped n : ℕ) : Prop where
  fits : taken < UInt64.size
  full : UInt64.size ≤ taken * 10 + 9
  /-- What does not fit is the taken number with the next digit behind it. -/
  next : UInt64.size * 10 ^ dropped ≤ n
  low : taken * 10 ^ (dropped + 1) ≤ n
  high : n < (taken + 1) * 10 ^ (dropped + 1)

theorem overfull_of_le (hs : s < UInt64.size) (h : AllDigits (c :: digits))
    (hnext : UInt64.size ≤ s * 10 + digitValue c) : Overfull s digits.length (decimalFrom s (c :: digits)) := by
  have hdigit := digitValue_le (allDigits_cons.mp h).1
  constructor
  case fits => exact hs
  case full => omega
  case next =>
    calc UInt64.size * 10 ^ digits.length ≤ (s * 10 + digitValue c) * 10 ^ digits.length :=
          Nat.mul_le_mul_right _ hnext
      _ ≤ decimalFrom s (c :: digits) := le_decimalFrom _ digits
  case low => exact le_decimalFrom s (c :: digits)
  case high => exact decimalFrom_lt h s

/-- Either all digits are taken, or one does not fit. -/
theorem takeWhole_cases (hs : s < UInt64.size) (h : AllDigits digits) :
    (takeWhole s digits = (decimalFrom s digits, 0) ∧ decimalFrom s digits < UInt64.size) ∨
    ∃ taken dropped, takeWhole s digits = (taken, dropped + 1) ∧ Overfull taken dropped (decimalFrom s digits) := by
  induction digits generalizing s with
  | nil => exact .inl ⟨rfl, hs⟩
  | cons c digits ih =>
    rcases Nat.lt_or_ge (s * 10 + digitValue c) UInt64.size with hnext | hnext
    · rw [takeWhole_cons_of_lt hnext]
      exact ih hnext (allDigits_cons.mp h).2
    · rw [takeWhole_cons_of_le hnext]
      exact .inr ⟨s, digits.length, rfl, overfull_of_le hs h hnext⟩

end

/-- The digits that are taken make `significand`, `dropped` more are left out, and all of them make `n`. -/
def Taken (significand dropped n : ℕ) : Prop :=
  significand < UInt64.size ∧ (dropped = 0 ∧ n = significand ∨ UInt64.size ≤ significand * 10 + 9 ∧
    significand * 10 ^ dropped ≤ n ∧ n < (significand + 10) * 10 ^ dropped)

/-- Digits that are taken behind a number of which nothing has been left out. -/
theorem taken_takeWhole {s : ℕ} (hs : s < UInt64.size) {digits : List Char} (h : AllDigits digits) :
    Taken (takeWhole s digits).1 (takeWhole s digits).2 (decimalFrom s digits) := by
  rcases takeWhole_cases hs h with ⟨heq, hall⟩ | ⟨taken, dropped, heq, hover⟩
  · rw [heq]
    exact ⟨hall, .inl ⟨rfl, rfl⟩⟩
  · rw [heq]
    exact ⟨hover.fits, .inr ⟨hover.full, hover.low,
      Nat.lt_of_lt_of_le hover.high (Nat.mul_le_mul_right _ (by omega))⟩⟩

/-! ### Digits behind the point after one before it did not fit -/

section

variable {taken dropped n : ℕ} {digits : List Char}

theorem Overfull.decimalFrom_lt (hover : Overfull taken dropped n) (h : AllDigits digits) :
    decimalFrom n digits < (taken + 1) * 10 ^ (dropped + 1 + digits.length) := by
  calc decimalFrom n digits < (n + 1) * 10 ^ digits.length := Json.decimalFrom_lt h n
    _ ≤ (taken + 1) * 10 ^ (dropped + 1) * 10 ^ digits.length := Nat.mul_le_mul_right _ hover.high
    _ = (taken + 1) * 10 ^ (dropped + 1 + digits.length) := by rw [pow_add _ (dropped + 1), mul_assoc]

/-- None of them is taken. -/
theorem Overfull.taken_none (hover : Overfull taken dropped n) (h : AllDigits digits) :
    Taken taken (dropped + 1 + digits.length) (decimalFrom n digits) := by
  refine ⟨hover.fits, .inr ⟨hover.full, ?_, ?_⟩⟩
  · calc taken * 10 ^ (dropped + 1 + digits.length) = taken * 10 ^ (dropped + 1) * 10 ^ digits.length := by
          rw [pow_add, mul_assoc]
      _ ≤ n * 10 ^ digits.length := Nat.mul_le_mul_right _ hover.low
      _ ≤ decimalFrom n digits := le_decimalFrom n digits
  · exact Nat.lt_of_lt_of_le (hover.decimalFrom_lt h) (Nat.mul_le_mul_right _ (by omega))

/-- The first of them is taken, in the place of the larger digit that did not fit. -/
theorem Overfull.taken_one (hover : Overfull taken dropped n) {c : Char} (h : AllDigits (c :: digits))
    (hc : taken * 10 + digitValue c < UInt64.size) :
    Taken (taken * 10 + digitValue c) (dropped + 1 + digits.length) (decimalFrom n (c :: digits)) := by
  have hfull := hover.full
  refine ⟨hc, .inr ⟨by omega, ?_, ?_⟩⟩
  · calc (taken * 10 + digitValue c) * 10 ^ (dropped + 1 + digits.length)
        ≤ UInt64.size * 10 ^ (dropped + 1 + digits.length) := Nat.mul_le_mul_right _ hc.le
      _ = UInt64.size * 10 ^ dropped * 10 ^ (digits.length + 1) := by rw [mul_assoc, ← pow_add]; congr 2; omega
      _ ≤ n * 10 ^ (digits.length + 1) := Nat.mul_le_mul_right _ hover.next
      _ ≤ decimalFrom n (c :: digits) := le_decimalFrom n (c :: digits)
  · calc decimalFrom n (c :: digits) < (taken + 1) * 10 ^ (dropped + 1 + (digits.length + 1)) :=
          hover.decimalFrom_lt h
      _ = (taken * 10 + 10) * 10 ^ (dropped + 1 + digits.length) := by rw [← add_assoc, pow_succ _ (_ + _)]; ring
      _ ≤ (taken * 10 + digitValue c + 10) * 10 ^ (dropped + 1 + digits.length) :=
        Nat.mul_le_mul_right _ (by omega)

/-- At most one of them still fits. -/
theorem Overfull.taken_takeWhole (hover : Overfull taken dropped n) (h : AllDigits digits) :
    Taken (takeWhole taken digits).1 (dropped + 1 + (takeWhole taken digits).2) (decimalFrom n digits) := by
  cases digits with
  | nil => exact hover.taken_none h
  | cons c digits =>
    rcases Nat.lt_or_ge (taken * 10 + digitValue c) UInt64.size with hnext | hnext
    · have hlarge : 100 ≤ UInt64.size := by decide
      have hfull := hover.full
      rw [takeWhole_cons_of_lt hnext, takeWhole_of_full (by omega)]
      exact hover.taken_one h hnext
    · rw [takeWhole_cons_of_le hnext]
      exact hover.taken_none h

end

namespace Numeral

/-- The number that the taken digits make. -/
def significand (n : Numeral) : ℕ := (takeFraction (takeWhole 0 n.whole).1 n.fraction).1

/-- The power of ten that the significand is multiplied by. -/
def scale (n : Numeral) : ℤ :=
  ((takeWhole 0 n.whole).2 : ℤ) - (takeFraction (takeWhole 0 n.whole).1 n.fraction).2 + n.exponentValue

theorem isSome_float? (n : Numeral) :
    n.float?.isSome = (scaleByTen (UInt64.ofNat n.significand).toFloat n.scale).isSome := by
  show ((scaleByTen (UInt64.ofNat n.significand).toFloat n.scale).bind _).isSome = _
  cases scaleByTen (UInt64.ofNat n.significand).toFloat n.scale <;> rfl

/-- The digits of a numeral, before and behind the point. -/
def AllDecimal (n : Numeral) : Prop := AllDigits (n.whole ++ n.fraction)

/-- The taken digits of a numeral among all its digits. -/
theorem exists_taken {n : Numeral} (h : n.AllDecimal) : ∃ dropped : ℕ,
    Taken n.significand dropped (natOfDecimal (n.whole ++ n.fraction)) ∧
      n.scale = dropped + (n.exponentValue - n.fraction.length) := by
  obtain ⟨hwhole, hfraction⟩ := allDigits_append.mp h
  have hlength := takeWhole_dropped_le (takeWhole 0 n.whole).1 n.fraction
  refine ⟨(takeWhole 0 n.whole).2 + (takeWhole (takeWhole 0 n.whole).1 n.fraction).2, ?_, ?_⟩
  · rw [significand, takeFraction_eq, natOfDecimal_append]
    have hzero : natOfDecimal n.whole = decimalFrom 0 n.whole := rfl
    rw [hzero]
    rcases takeWhole_cases (by decide : 0 < UInt64.size) hwhole with ⟨heq, hall⟩ | ⟨taken, dropped, heq, hover⟩
    · rw [heq, Nat.zero_add]
      exact taken_takeWhole hall hfraction
    · rw [heq]
      exact hover.taken_takeWhole hfraction
  · rw [scale, takeFraction_eq]
    push_cast
    omega

end Numeral

end ClientRoster.Json
