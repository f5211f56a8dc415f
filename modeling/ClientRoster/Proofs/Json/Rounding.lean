import ClientRoster.Json.Numeral
import Mathlib

/-!
# `ClientRoster.Proofs.Json.Rounding` — how far a rounding goes

The positive numbers that are rounded here have a mantissa of 53 bits or more. Rounding cuts it to 53 bits, so it
changes the number by a factor of at most `slack`, whichever way a tie goes. Nothing more is asked of it: a bound of one
whole unit in the last place does without telling the cases of the rounding apart.

## Contents
- `slack`, `Close`: what some roundings may change, and how this adds up.
- `Full`: a number whose mantissa has all its bits, and what it is worth.
- **`exists_full_roundWithAccuracy`: one rounding**, and the operations that end with it: `exists_full_mul`,
  `exists_full_round`, `exists_full_ofScientific`.
- `unpack_pack`, `unpack_pack_of_overflow`: a number in its 64 bits.
-/

namespace ClientRoster.Rounding

open Float.Model Float.Model.UnpackedFloat

/-! ## Closeness -/

/-- The factor by which one rounding may change a number. -/
def slack : ℚ := 1 + 1 / 2 ^ 52

/-- Two numbers are within `k` roundings of each other. -/
def Close (k : ℕ) (x y : ℚ) : Prop := x ≤ slack ^ k * y ∧ y ≤ slack ^ k * x

variable {j k : ℕ} {x y z : ℚ}

theorem slack_pos : 0 < slack := by norm_num [slack]

theorem one_le_slack_pow (k : ℕ) : 1 ≤ slack ^ k := one_le_pow₀ (by norm_num [slack])

theorem Close.refl (hx : 0 ≤ x) (k : ℕ) : Close k x x :=
  ⟨le_mul_of_one_le_left hx (one_le_slack_pow k), le_mul_of_one_le_left hx (one_le_slack_pow k)⟩

theorem Close.trans (h : Close j x y) (h' : Close k y z) : Close (j + k) x z := by
  have hj : 0 < slack ^ j := pow_pos slack_pos j
  have hk : 0 < slack ^ k := pow_pos slack_pos k
  constructor
  · calc x ≤ slack ^ j * y := h.1
      _ ≤ slack ^ j * (slack ^ k * z) := mul_le_mul_of_nonneg_left h'.1 hj.le
      _ = slack ^ (j + k) * z := by rw [pow_add, mul_assoc]
  · calc z ≤ slack ^ k * y := h'.2
      _ ≤ slack ^ k * (slack ^ j * x) := mul_le_mul_of_nonneg_left h.2 hk.le
      _ = slack ^ (j + k) * x := by rw [pow_add]; ring

theorem Close.mul_right (h : Close k x y) (hz : 0 ≤ z) : Close k (x * z) (y * z) := by
  constructor
  · calc x * z ≤ slack ^ k * y * z := mul_le_mul_of_nonneg_right h.1 hz
      _ = slack ^ k * (y * z) := mul_assoc _ _ _
  · calc y * z ≤ slack ^ k * x * z := mul_le_mul_of_nonneg_right h.2 hz
      _ = slack ^ k * (x * z) := mul_assoc _ _ _

theorem Close.mul {v w : ℚ} (h : Close j x v) (h' : Close k y w) (hx : 0 ≤ x) (hy : 0 ≤ y) (hv : 0 ≤ v)
    (hw : 0 ≤ w) : Close (j + k) (x * y) (v * w) := by
  have hj : 0 < slack ^ j := pow_pos slack_pos j
  constructor
  · calc x * y ≤ (slack ^ j * v) * (slack ^ k * w) := mul_le_mul h.1 h'.1 hy (mul_nonneg hj.le hv)
      _ = slack ^ (j + k) * (v * w) := by rw [pow_add]; ring
  · calc v * w ≤ (slack ^ j * x) * (slack ^ k * y) := mul_le_mul h.2 h'.2 hw (mul_nonneg hj.le hx)
      _ = slack ^ (j + k) * (x * y) := by rw [pow_add]; ring

/-- What is cut off a number may count as a rounding. -/
theorem close_of_le (hx : 0 ≤ x) (h : x ≤ y) (h' : y ≤ slack * x) : Close 1 x y := by
  constructor
  · exact h.trans (le_mul_of_one_le_left (hx.trans h) (one_le_slack_pow 1))
  · rw [pow_one]
    exact h'

/-- A few roundings do not halve a number. -/
theorem Close.half_le (h : Close k x y) (hk : k ≤ 3) (hy : 1 ≤ y) : 1 / 2 ≤ x := by
  have hmono : slack ^ k ≤ slack ^ 3 := pow_le_pow_right₀ (by norm_num [slack]) hk
  have hcube : slack ^ 3 ≤ 2 := by norm_num [slack]
  have hpos : 0 < slack ^ k := pow_pos slack_pos k
  have hone : 1 ≤ slack ^ k * x := hy.trans h.2
  have hx : 0 < x := (mul_pos_iff_of_pos_left hpos).mp (lt_of_lt_of_le one_pos hone)
  have htwo : slack ^ k * x ≤ 2 * x := mul_le_mul_of_nonneg_right (hmono.trans hcube) hx.le
  linarith

/-! ## Numbers of full precision -/

/-- A positive number whose mantissa has all of 53 bits, and what it is worth. -/
inductive Full : UnpackedFloat → ℚ → Prop
  | intro {m : ℕ} {e : ℤ} (hpos : 0 < m) (hbits : m.log2 = 52) : Full (.finite .positive m e hpos) (m * 2 ^ e)

theorem Full.isInf_eq_false {u : UnpackedFloat} (h : Full u x) : u.isInf = false := by
  cases h
  rfl

theorem Full.beq_zero {u : UnpackedFloat} (h : Full u x) : u.beq (.zero .positive) = false := by
  cases h
  rfl

/-- A number lies below the power of two that its leading bit stands before. -/
theorem lt_two_zpow_totalExponent (m : ℕ) (e : ℤ) : (m : ℚ) * 2 ^ e < 2 ^ totalExponent m e := by
  have hm : (m : ℚ) < 2 ^ (m.log2 + 1) := by exact_mod_cast Nat.lt_log2_self
  have he : (0 : ℚ) < 2 ^ e := zpow_pos (by norm_num) e
  calc (m : ℚ) * 2 ^ e < 2 ^ (m.log2 + 1) * 2 ^ e := mul_lt_mul_of_pos_right hm he
    _ = 2 ^ totalExponent m e := by
      rw [← zpow_natCast, ← zpow_add₀ (by norm_num)]
      norm_cast

/-- A number is at least the power of two of its leading bit. -/
theorem two_zpow_log2_le {m : ℕ} (hm : m ≠ 0) (e : ℤ) : (2 : ℚ) ^ (m.log2 + e) ≤ (m : ℚ) * 2 ^ e := by
  have hlow : (2 : ℚ) ^ m.log2 ≤ m := by exact_mod_cast Nat.log2_self_le hm
  have he : (0 : ℚ) < 2 ^ e := zpow_pos (by norm_num) e
  calc (2 : ℚ) ^ (m.log2 + e) = 2 ^ m.log2 * 2 ^ e := by rw [zpow_add₀ (by norm_num), zpow_natCast]
    _ ≤ (m : ℚ) * 2 ^ e := mul_le_mul_of_nonneg_right hlow he.le

/-- A number below a power of two has its leading bit below it. -/
theorem lt_two_pow_iff {m : ℕ} (hm : m ≠ 0) (e : ℤ) (n : ℕ) : (m : ℚ) * 2 ^ e < 2 ^ n ↔ m.log2 + e < n := by
  have htwo : (1 : ℚ) < 2 := by norm_num
  constructor
  · intro h
    have hlt := lt_of_le_of_lt (two_zpow_log2_le hm e) h
    rw [← zpow_natCast] at hlt
    exact (zpow_lt_zpow_iff_right₀ htwo).mp hlt
  · intro h
    have hle : totalExponent m e ≤ n := by
      unfold totalExponent
      omega
    calc (m : ℚ) * 2 ^ e < 2 ^ totalExponent m e := lt_two_zpow_totalExponent m e
      _ ≤ 2 ^ (n : ℤ) := zpow_le_zpow_right₀ htwo.le hle
      _ = 2 ^ n := zpow_natCast 2 n

theorem totalExponent_nonneg {m : ℕ} {e : ℤ} (h : 1 / 2 ≤ (m : ℚ) * 2 ^ e) : 0 ≤ totalExponent m e := by
  have hlt := lt_of_le_of_lt h (lt_two_zpow_totalExponent m e)
  have hhalf : (2 : ℚ) ^ (-1 : ℤ) < 2 ^ totalExponent m e := by
    rw [zpow_neg_one]
    linarith
  have hplace := (zpow_lt_zpow_iff_right₀ (by norm_num : (1 : ℚ) < 2)).mp hhalf
  omega

/-- A mantissa of 53 bits. -/
theorem bounds_of_log2 {m : ℕ} (h : m.log2 = 52) : 2 ^ 52 ≤ m ∧ m < 2 ^ 53 := by
  refine (Nat.log2_eq_iff ?_).mp h
  rintro rfl
  simp at h

/-! ## Rounding -/

theorem mantissa_shiftRight (em : ExtendedMantissa) (n : ℕ) : (em >>> n).mantissa = em.mantissa / 2 ^ n := by
  induction n with
  | zero => simp [HShiftRight.hShiftRight, Nat.repeat]
  | succ n ih =>
    show (em >>> n).mantissa / 2 = em.mantissa / 2 ^ (n + 1)
    rw [ih, Nat.div_div_eq_div_mul, pow_succ]

/-- A mantissa is rounded down or up. -/
theorem roundedMantissa_eq_or (em : ExtendedMantissa) :
    em.roundedMantissa = em.mantissa ∨ em.roundedMantissa = em.mantissa + 1 := by
  obtain ⟨m, half, sticky⟩ := em
  cases half <;> cases sticky
  · exact .inl rfl
  · exact .inl rfl
  · -- a tie goes to the even mantissa
    show m + m % 2 = m ∨ m + m % 2 = m + 1
    omega
  · exact .inr rfl

/-- A mantissa of 53 bits or more is cut to 53 bits. -/
theorem shiftToTargetExponent_of_wide {m : ℕ} {e : ℤ} (hwide : 52 ≤ m.log2) (hnormal : -1 ≤ totalExponent m e) :
    (shiftToTargetExponent .binary64 m e .exact).1.mantissa = m / 2 ^ (m.log2 - 52) ∧
      (shiftToTargetExponent .binary64 m e .exact).2 = e + (m.log2 - 52 : ℕ) := by
  have hamount : (Format.binary64.targetExponent (totalExponent m e) - e).toNat = m.log2 - 52 := by
    unfold totalExponent at hnormal ⊢
    simp only [Format.targetExponent, Format.minExponent, Format.mantissaBits]
    omega
  constructor
  · rw [← hamount]
    exact mantissa_shiftRight _ _
  · rw [← hamount]
    rfl

/-- What is left of a mantissa that is cut has all of 53 bits. -/
theorem log2_cut {m : ℕ} (hwide : 52 ≤ m.log2) : (m / 2 ^ (m.log2 - 52)).log2 = 52 := by
  rw [Nat.log2_eq_log_two, Nat.log_div_base_pow, ← Nat.log2_eq_log_two]
  omega

/-- To cut a mantissa to 53 bits and to round what is left, down or up, is one rounding. -/
theorem close_cut {m r n : ℕ} (hbits : (m / 2 ^ n).log2 = 52) (hr : r = m / 2 ^ n ∨ r = m / 2 ^ n + 1) :
    Close 1 (r * 2 ^ n) m := by
  have hunit : (0 : ℚ) ≤ 2 ^ n := pow_nonneg (by norm_num) n
  have hbig := (bounds_of_log2 hbits).1
  have hlow : m / 2 ^ n * 2 ^ n ≤ m := Nat.div_mul_le_self m _
  have hhigh : m < (m / 2 ^ n + 1) * 2 ^ n := Nat.lt_mul_of_div_lt (Nat.lt_succ_self _) (Nat.two_pow_pos n)
  generalize m / 2 ^ n = q at hr hbig hlow hhigh
  have hq : (2 : ℚ) ^ 52 ≤ q := by exact_mod_cast hbig
  have hfloor : (q : ℚ) * 2 ^ n ≤ m := by exact_mod_cast hlow
  have hceiling : (m : ℚ) < (q + 1) * 2 ^ n := by exact_mod_cast hhigh
  have hstep : (q + 1 : ℚ) ≤ slack * q := by
    unfold slack
    linarith
  obtain ⟨hdown, hup⟩ : (q : ℚ) ≤ r ∧ (r : ℚ) ≤ q + 1 := by
    rcases hr with rfl | rfl
    · constructor <;> linarith
    · push_cast
      constructor <;> linarith
  unfold Close
  rw [pow_one]
  constructor
  · calc (r : ℚ) * 2 ^ n ≤ slack * q * 2 ^ n := mul_le_mul_of_nonneg_right (hup.trans hstep) hunit
      _ = slack * (q * 2 ^ n) := mul_assoc _ _ _
      _ ≤ slack * m := mul_le_mul_of_nonneg_left hfloor slack_pos.le
  · calc (m : ℚ) ≤ (q + 1) * 2 ^ n := hceiling.le
      _ ≤ slack * q * 2 ^ n := mul_le_mul_of_nonneg_right hstep hunit
      _ = slack * (q * 2 ^ n) := mul_assoc _ _ _
      _ ≤ slack * (r * 2 ^ n) := mul_le_mul_of_nonneg_left (mul_le_mul_of_nonneg_right hdown hunit) slack_pos.le

/-- A mantissa that rounding has made one bit too long loses a zero. -/
theorem carry {r : ℕ} (hlow : 2 ^ 52 ≤ r) (hhigh : r ≤ 2 ^ 53) (e : ℤ) :
    ((r / 2 ^ (r.log2 - 52) : ℕ) : ℚ) * 2 ^ (e + (r.log2 - 52 : ℕ)) = r * 2 ^ e := by
  rcases Nat.lt_or_eq_of_le hhigh with hlt | rfl
  · have hbits : r.log2 = 52 := (Nat.log2_eq_iff (by omega)).mpr ⟨hlow, hlt⟩
    simp [hbits]
  · have hbits : (2 ^ 53).log2 = 53 := Nat.log2_two_pow
    rw [hbits, zpow_add₀ (by norm_num)]
    norm_num
    ring

/-- Rounding is done in two steps: the mantissa is cut and rounded, and cut once more if that has made it too long. -/
theorem roundWithAccuracy_eq {m r : ℕ} {e f : ℤ} {final : ExtendedMantissa × ℤ}
    (hr : (shiftToTargetExponent .binary64 m e .exact).1.roundedMantissa = r)
    (hf : (shiftToTargetExponent .binary64 m e .exact).2 = f)
    (hfinal : shiftToTargetExponent .binary64 r f .exact = final) (hpos : 0 < final.1.mantissa) :
    roundWithAccuracy .binary64 .positive m e .exact = .finite .positive final.1.mantissa final.2 hpos := by
  subst hr hf hfinal
  exact dif_neg (Nat.ne_of_gt hpos)

/-- **A positive number with enough bits is rounded to one of full precision that is close to it.** -/
theorem exists_full_roundWithAccuracy {m : ℕ} {e : ℤ} (hwide : 52 ≤ m.log2) (hnormal : -1 ≤ totalExponent m e) :
    ∃ x, Full (roundWithAccuracy .binary64 .positive m e .exact) x ∧ Close 1 x (m * 2 ^ e) := by
  obtain ⟨hmantissa, hexponent⟩ := shiftToTargetExponent_of_wide hwide hnormal
  have hcut := log2_cut hwide
  have hround := roundedMantissa_eq_or (shiftToTargetExponent .binary64 m e .exact).1
  rw [hmantissa] at hround
  generalize hr : (shiftToTargetExponent .binary64 m e .exact).1.roundedMantissa = r at hround
  obtain ⟨hlow, hhigh⟩ : 2 ^ 52 ≤ r ∧ r ≤ 2 ^ 53 := by
    have hrange := bounds_of_log2 hcut
    omega
  -- the second cut takes away at most the bit that rounding has added
  have hwide' : 52 ≤ r.log2 := (Nat.le_log2 (by omega)).mpr hlow
  have hnormal' : -1 ≤ totalExponent r (e + (m.log2 - 52 : ℕ)) := by
    unfold totalExponent at hnormal ⊢
    omega
  obtain ⟨hmantissa', hexponent'⟩ := shiftToTargetExponent_of_wide hwide' hnormal'
  have hbits := log2_cut hwide'
  have hpos : 0 < r / 2 ^ (r.log2 - 52) := Nat.lt_of_lt_of_le (by norm_num) (bounds_of_log2 hbits).1
  have hvalue := carry hlow hhigh (e + (m.log2 - 52 : ℕ))
  rw [← hmantissa'] at hpos hbits hvalue
  have hpower : (0 : ℚ) ≤ 2 ^ e := (zpow_pos (by norm_num) e).le
  have hsplit : (r : ℚ) * 2 ^ (m.log2 - 52) * 2 ^ e = r * 2 ^ (e + (m.log2 - 52 : ℕ)) := by
    rw [zpow_add₀ (by norm_num), zpow_natCast]
    ring
  refine ⟨_, ?_, (close_cut hcut hround).mul_right hpower⟩
  rw [roundWithAccuracy_eq hr hexponent rfl hpos, hsplit, ← hvalue, ← hexponent']
  exact .intro hpos hbits

/-! ## Operations -/

/-- The product of two numbers is rounded once. -/
theorem exists_full_mul {u w : UnpackedFloat} (hu : Full u x) (hw : Full w y) (hx : 1 / 2 ≤ x) (hy : 1 / 2 ≤ y) :
    ∃ z, Full (UnpackedFloat.mul .binary64 u w) z ∧ Close 1 z (x * y) := by
  cases hu with
  | @intro m e hm hbits =>
    cases hw with
    | @intro n f hn hbits' =>
      have hfirst := totalExponent_nonneg hx
      have hsecond := totalExponent_nonneg hy
      have hwide : 104 ≤ (m * n).log2 := by
        have hlow := Nat.mul_le_mul (Nat.log2_self_le (Nat.ne_of_gt hm)) (Nat.log2_self_le (Nat.ne_of_gt hn))
        rw [hbits, hbits', ← pow_add] at hlow
        exact (Nat.le_log2 (Nat.ne_of_gt (Nat.mul_pos hm hn))).mpr hlow
      have hnormal : -1 ≤ totalExponent (m * n) (e + f) := by
        unfold totalExponent at hfirst hsecond ⊢
        omega
      obtain ⟨z, hfull, hclose⟩ := exists_full_roundWithAccuracy (by omega : 52 ≤ (m * n).log2) hnormal
      have hvalue : ((m * n : ℕ) : ℚ) * 2 ^ (e + f) = m * 2 ^ e * (n * 2 ^ f) := by
        rw [zpow_add₀ (by norm_num)]
        push_cast
        ring
      exact ⟨z, hfull, hvalue ▸ hclose⟩

/-- A whole number is rounded once. -/
theorem exists_full_round {n : ℕ} (hn : 0 < n) :
    ∃ x, Full (Float.Model.UnpackedFloat.round .binary64 .positive n 0) x ∧ Close 1 x n := by
  have hamount : (0 - Format.binary64.targetExponent (totalExponent n 0)).toNat = 52 - n.log2 := by
    unfold totalExponent
    simp only [Format.targetExponent, Format.minExponent, Format.mantissaBits]
    omega
  have hshift : n <<< (52 - n.log2) = n * 2 ^ (52 - n.log2) := Nat.shiftLeft_eq _ _
  have hne : n * 2 ^ (52 - n.log2) ≠ 0 := Nat.ne_of_gt (Nat.mul_pos hn (Nat.two_pow_pos _))
  have hbits : n.log2 + (52 - n.log2) ≤ (n * 2 ^ (52 - n.log2)).log2 := by
    rw [Nat.le_log2 hne, pow_add]
    exact Nat.mul_le_mul_right _ (Nat.log2_self_le (Nat.ne_of_gt hn))
  have hnormal : -1 ≤ totalExponent (n * 2 ^ (52 - n.log2)) (0 - (52 - n.log2 : ℕ)) := by
    unfold totalExponent
    omega
  obtain ⟨x, hfull, hclose⟩ := exists_full_roundWithAccuracy (by omega) hnormal
  have hvalue : ((n * 2 ^ (52 - n.log2) : ℕ) : ℚ) * 2 ^ (0 - ((52 - n.log2 : ℕ) : ℤ)) = n := by
    rw [zero_sub, zpow_neg, zpow_natCast]
    push_cast
    exact mul_inv_cancel_right₀ (pow_ne_zero _ (by norm_num)) _
  rw [hvalue] at hclose
  refine ⟨x, ?_, hclose⟩
  unfold Float.Model.UnpackedFloat.round decreaseExponent
  rw [← hshift, ← hamount] at hfull
  exact hfull

/-- A power of ten is rounded once. -/
theorem exists_full_ofScientific {n : ℕ} (hn : n ≤ 308) :
    ∃ x, Full (UnpackedFloat.ofScientific .binary64 1 n) x ∧ Close 1 x (10 ^ n) := by
  have hpow : 1 ≤ 10 ^ n := Nat.one_le_pow _ _ (by norm_num)
  have hwide : 53 ≤ (1 <<< 53 * 10 ^ n).log2 := by
    rw [Nat.le_log2 (by omega)]
    omega
  have hnormal : -1 ≤ totalExponent (1 <<< 53 * 10 ^ n) (-53 + 0) := by
    unfold totalExponent
    omega
  obtain ⟨x, hfull, hclose⟩ := exists_full_roundWithAccuracy (by omega) hnormal
  have hvalue : ((1 <<< 53 * 10 ^ n : ℕ) : ℚ) * 2 ^ (-53 + 0 : ℤ) = 10 ^ n := by
    push_cast
    norm_num
    ring
  rw [hvalue] at hclose
  refine ⟨x, ?_, hclose⟩
  unfold UnpackedFloat.ofScientific
  rw [dif_neg (by omega), if_neg (by simp; omega), if_neg (by simp; omega), if_pos (by omega)]
  exact hfull

/-! ## Numbers in 64 bits -/

/-- The bits of a number of full precision: infinite if its exponent has no place among them. -/
theorem pack_eq {m : ℕ} {e : ℤ} (hpos : 0 < m) (hbits : m.log2 = 52) :
    UnpackedFloat.pack .binary64 (.finite .positive m e hpos) =
      if 2047 ≤ (e + 1075).toNat then packedInfinity .binary64 .positive
      else packComponents .binary64 .positive (BitVec.ofNat 11 (e + 1075).toNat) (BitVec.ofNat 52 m) := by
  have hbias : (e + (Format.binary64.exponentBias : ℕ) + (52 : ℕ)).toNat = (e + 1075).toNat := by
    show (e + (1023 : ℕ) + (52 : ℕ)).toNat = (e + 1075).toNat
    omega
  unfold UnpackedFloat.pack
  simp only [hbias, hbits]
  by_cases hlarge : 2047 ≤ (e + 1075).toNat
  · rw [if_pos (by omega), if_pos hlarge]
  · rw [if_neg (by omega), if_neg hlarge]
    exact if_pos rfl

/-- The mantissa of full precision from its bits, of which the leading one is not kept. -/
theorem toNat_mantissa {m : ℕ} (hlow : 2 ^ 52 ≤ m) (hhigh : m < 2 ^ 53) : (1#1 ++ BitVec.ofNat 52 m).toNat = m := by
  rw [BitVec.toNat_append, ← Nat.shiftLeft_add_eq_or_of_lt (BitVec.ofNat 52 m).isLt, BitVec.toNat_ofNat,
    Nat.shiftLeft_eq]
  show 1 * 2 ^ 52 + m % 2 ^ 52 = m
  omega

/-- A number in range is found again in its bits. -/
theorem unpack_pack {u : UnpackedFloat} (h : Full u x) (hlow : 1 / 2 ≤ x) (hhigh : x < 2 ^ 1024) :
    (Float.Model.pack u).unpack = u := by
  show UnpackedFloat.unpack .binary64 (UnpackedFloat.pack .binary64 u) = u
  cases h with
  | @intro m e hpos hbits =>
    obtain ⟨hm, hm'⟩ := bounds_of_log2 hbits
    have hleast := totalExponent_nonneg hlow
    have hgreatest := (lt_two_pow_iff (Nat.ne_of_gt hpos) e 1024).mp hhigh
    rw [totalExponent, hbits] at hleast
    rw [hbits] at hgreatest
    have hfield : (BitVec.ofNat 11 (e + 1075).toNat).toNat = (e + 1075).toNat := by
      rw [BitVec.toNat_ofNat, Nat.mod_eq_of_lt (by omega)]
    -- neither all ones nor all zeros, which mean something else
    have hones : BitVec.ofNat 11 (e + 1075).toNat ≠ -1#11 := by
      apply ne_of_apply_ne BitVec.toNat
      rw [hfield]
      show (e + 1075).toNat ≠ 2047
      omega
    have hzeros : BitVec.ofNat 11 (e + 1075).toNat ≠ 0#11 := by
      apply ne_of_apply_ne BitVec.toNat
      rw [hfield]
      show (e + 1075).toNat ≠ 0
      omega
    have hexponent : (((e + 1075).toNat : ℕ) : ℤ) - ((1023 : ℕ) + (52 : ℕ)) = e := by omega
    rw [pack_eq hpos hbits, if_neg (by omega), UnpackedFloat.unpack]
    simp only [unpackMantissa_packComponents, unpackExponent_packComponents, unpackSign_packComponents,
      Sign.ofBitVec_toBitVec]
    rw [if_neg hones, if_neg hzeros]
    simp only [toNat_mantissa hm hm', hfield]
    congr 1

/-- A number beyond the range becomes infinite. -/
theorem unpack_pack_of_overflow {u : UnpackedFloat} (h : Full u x) (hhigh : 2 ^ 1024 ≤ x) :
    (Float.Model.pack u).unpack = .infinity .positive := by
  show UnpackedFloat.unpack .binary64 (UnpackedFloat.pack .binary64 u) = .infinity .positive
  cases h with
  | @intro m e hpos hbits =>
    have hgreat := mt (lt_two_pow_iff (Nat.ne_of_gt hpos) e 1024).mpr (not_lt.mpr hhigh)
    rw [hbits] at hgreat
    rw [pack_eq hpos hbits, if_pos (by omega)]
    rfl

end ClientRoster.Rounding
