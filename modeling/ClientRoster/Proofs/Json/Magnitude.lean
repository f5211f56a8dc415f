import ClientRoster.Proofs.Json.Flaw
import ClientRoster.Proofs.Json.Grammar
import ClientRoster.Proofs.Json.Rounding
import ClientRoster.Proofs.Json.Significand

/-!
# `ClientRoster.Proofs.Json.Magnitude` — which numerals have a value

A numeral writes an exact number, its magnitude. The reader comes near it in four roundings: digits are left out, the
others and the power of ten become floating-point numbers, and the product of these is rounded. So a numeral has a
value if its magnitude is well below the largest floating-point number, `2 ^ 1024 - 2 ^ 971`, and has none if it is well
above. For a document this tells which of its numerals a reader who keeps it accepts, without doing the conversion.

## Contents
- `exists_full_toFloat`, `exists_full_powerOfTen`, `exists_close_mul_powerOfTen`: the factors and the product.
- `exists_close_scaleByTen`: a number times a power of ten.
- `Taken.close`, `Numeral.magnitude`, `Numeral.exists_close_magnitude`: a numeral and what it writes.
- **`Numeral.isSome_value?_of_magnitude_lt`, `Numeral.magnitude_lt_of_isSome_value?`: which numerals have a value.**
- **`Doc.IsText.valued_of_magnitude_lt`, `Doc.IsText.magnitude_lt_of_valued`: the same for the numerals of a document.**
-/

namespace ClientRoster.Json

open Float.Model Rounding

/-! ## Floating-point numbers -/

/-- A rounded number that is in range is found in its bits. -/
theorem full_unpack_pack {u : UnpackedFloat} {x y : ℚ} (hfull : Full u x) (hclose : Close 1 x y) (hone : 1 ≤ y)
    (hrange : slack ^ 1 * y < 2 ^ 1024) : Full (Float.Model.pack u).unpack x := by
  rw [unpack_pack hfull (hclose.half_le (by norm_num) hone) (lt_of_le_of_lt hclose.1 hrange)]
  exact hfull

theorem toModel_toFloat {n : ℕ} (hpos : 0 < n) (hn : n < UInt64.size) :
    (UInt64.ofNat n).toFloat.toModel = Float.Model.pack (.round .binary64 .positive n 0) := by
  have hcompare : compare (n : ℤ) 0 = .gt := Int.compare_eq_gt.mpr (by omega)
  show Float.Model.pack (UnpackedFloat.ofUInt64 .binary64 (UInt64.ofNat n)) = _
  rw [UnpackedFloat.ofUInt64, UInt64.toNat_ofNat_of_lt' hn, UnpackedFloat.ofNat, UnpackedFloat.ofInt,
    UnpackedFloat.normalize, hcompare]
  rfl

/-- A number of 64 bits as a floating-point number. -/
theorem exists_full_toFloat {n : ℕ} (hpos : 0 < n) (hn : n < UInt64.size) :
    ∃ x, Full (UInt64.ofNat n).toFloat.toModel.unpack x ∧ Close 1 x n := by
  obtain ⟨x, hfull, hclose⟩ := exists_full_round hpos
  have hsize : (n : ℚ) < 2 ^ 64 := by exact_mod_cast hn
  have hrange : slack ^ 1 * n < 2 ^ 1024 := by
    calc slack ^ 1 * n ≤ slack ^ 1 * 2 ^ 64 := mul_le_mul_of_nonneg_left hsize.le (pow_pos slack_pos 1).le
      _ ≤ 2 ^ 65 := by norm_num [slack]
      _ < 2 ^ 1024 := pow_lt_pow_right₀ (by norm_num) (by norm_num)
  rw [toModel_toFloat hpos hn]
  exact ⟨x, full_unpack_pack hfull hclose (by exact_mod_cast hpos) hrange, hclose⟩

/-- A power of ten, from the table of small ones or not, is what the general conversion gives. -/
theorem toModel_powerOfTen (n : ℕ) : (powerOfTen n).toModel = Float.Model.ofScientific 1 n := by
  by_cases h : n ≤ 22
  · have htable : ∀ n, n < 23 → (powerOfTen n).toModel = Float.Model.ofScientific 1 n := by decide +kernel
    exact htable n (by omega)
  · unfold powerOfTen Float.ofScientific
    rw [dif_neg (by omega)]
    rfl

/-- The greatest power of ten that is in range stays in range when it is rounded. -/
theorem slack_mul_ten_pow_lt : slack ^ 1 * 10 ^ 308 < 2 ^ 1024 := by
  have hlarge : 3 * 10 ^ 308 < 2 ^ 1024 * 2 := by decide +kernel
  have hslack : slack ^ 1 ≤ 3 / 2 := by norm_num [slack]
  calc slack ^ 1 * 10 ^ 308 ≤ 3 / 2 * 10 ^ 308 := mul_le_mul_of_nonneg_right hslack (pow_nonneg (by norm_num) _)
    _ < 2 ^ 1024 := by
      rw [div_mul_eq_mul_div, div_lt_iff₀ (by norm_num)]
      exact_mod_cast hlarge

/-- A power of ten as a floating-point number. -/
theorem exists_full_powerOfTen {n : ℕ} (hn : n ≤ 308) :
    ∃ x, Full (powerOfTen n).toModel.unpack x ∧ Close 1 x (10 ^ n) := by
  obtain ⟨x, hfull, hclose⟩ := exists_full_ofScientific hn
  have hpow : (10 : ℚ) ^ n ≤ 10 ^ 308 := pow_le_pow_right₀ (by norm_num) hn
  have hrange : slack ^ 1 * 10 ^ n < 2 ^ 1024 :=
    lt_of_le_of_lt (mul_le_mul_of_nonneg_left hpow (pow_pos slack_pos 1).le) slack_mul_ten_pow_lt
  rw [toModel_powerOfTen]
  exact ⟨x, full_unpack_pack hfull hclose (one_le_pow₀ (by norm_num)) hrange, hclose⟩

/-- **Whether the product of a number and a power of ten is infinite is told by a number within three roundings.** -/
theorem exists_close_mul_powerOfTen {n p : ℕ} (hpos : 0 < n) (hn : n < UInt64.size) (hp : p ≤ 308) :
    ∃ z, Close 3 z (n * 10 ^ p) ∧
      (((UInt64.ofNat n).toFloat * powerOfTen p).isInf = false ↔ z < 2 ^ 1024) := by
  obtain ⟨x, hx, hxclose⟩ := exists_full_toFloat hpos hn
  obtain ⟨y, hy, hyclose⟩ := exists_full_powerOfTen hp
  have hone : (1 : ℚ) ≤ n := by exact_mod_cast hpos
  have hone' : (1 : ℚ) ≤ 10 ^ p := one_le_pow₀ (by norm_num)
  have hxhalf := hxclose.half_le (by norm_num) hone
  have hyhalf := hyclose.half_le (by norm_num) hone'
  obtain ⟨z, hz, hzclose⟩ := exists_full_mul hx hy hxhalf hyhalf
  have hfactors := hxclose.mul hyclose (by linarith) (by linarith) (by linarith) (by linarith)
  have hclose := hzclose.trans hfactors
  have hzhalf := hclose.half_le (by norm_num) (one_le_mul_of_one_le_of_one_le hone hone')
  refine ⟨z, hclose, ?_⟩
  show (Float.Model.pack (UnpackedFloat.mul .binary64 _ _)).unpack.isInf = false ↔ z < 2 ^ 1024
  rcases lt_or_ge z (2 ^ 1024) with hlow | hhigh
  · rw [unpack_pack hz hzhalf hlow]
    exact iff_of_true hz.isInf_eq_false hlow
  · rw [unpack_pack_of_overflow hz hhigh]
    exact iff_of_false Bool.true_eq_false.mp (not_lt.mpr hhigh)

/-- Zero times a power of ten is not infinite. -/
theorem isInf_zero_mul_powerOfTen {p : ℕ} (hp : p ≤ 308) :
    ((UInt64.ofNat 0).toFloat * powerOfTen p).isInf = false := by
  obtain ⟨y, hy, -⟩ := exists_full_powerOfTen hp
  have hzero : (UInt64.ofNat 0).toFloat.toModel.unpack = .zero .positive := rfl
  show (Float.Model.pack (UnpackedFloat.mul .binary64 _ (powerOfTen p).toModel.unpack)).unpack.isInf = false
  rw [hzero]
  generalize (powerOfTen p).toModel.unpack = u at hy
  obtain ⟨hpos, -⟩ := hy
  show (Float.Model.pack (.zero .positive)).unpack.isInf = false
  decide

/-- A number of 64 bits is a floating-point zero only if it is zero. -/
theorem toFloat_beq_zero {n : ℕ} (hn : n < UInt64.size) : ((UInt64.ofNat n).toFloat == 0) = decide (n = 0) := by
  rcases Nat.eq_zero_or_pos n with rfl | hpos
  · decide +kernel
  · obtain ⟨x, hx, -⟩ := exists_full_toFloat hpos hn
    rw [decide_eq_false (Nat.ne_of_gt hpos)]
    exact hx.beq_zero

/-! ## The range -/

theorem isSome_scaleByTen_of_neg (x : Float) {e : ℤ} (h : e < 0) : (scaleByTen x e).isSome = true := by
  fun_induction scaleByTen x e with
  | case1 | case2 | case3 | case4 => omega
  | case5 | case6 => rfl
  | case7 x e hneg hfar hzero ih => exact ih (by omega)

theorem isSome_scaleByTen_of_le (x : Float) {p : ℕ} (h : p ≤ 308) :
    (scaleByTen x p).isSome = !(x * powerOfTen p).isInf := by
  rw [scaleByTen]
  simp only [Int.natCast_nonneg, if_true, Int.toNat_natCast, if_pos (by omega : (p : ℤ) ≤ 308)]
  cases (x * powerOfTen p).isInf <;> rfl

theorem isSome_scaleByTen_of_gt (x : Float) {e : ℤ} (h : 308 < e) : (scaleByTen x e).isSome = (x == 0) := by
  rw [scaleByTen, if_pos (by omega), if_neg (by omega)]
  cases x == 0 <;> rfl

/-- The largest floating-point number is `2 ^ 1024 - 2 ^ 971`; a number is well below it if four roundings do not take
it beyond. -/
theorem slack_mul_lt {x : ℚ} (h : x < 2 ^ 1024 - 2 ^ 975) : slack ^ 4 * x < 2 ^ 1024 := by
  have hsplit : (2 : ℚ) ^ 1024 = 2 ^ 49 * 2 ^ 975 := by rw [← pow_add]
  have hfour : slack ^ 4 * (2 ^ 49 - 1) ≤ 2 ^ 49 := by norm_num [slack]
  have hpow : (0 : ℚ) < 2 ^ 975 := pow_pos (by norm_num) _
  rw [hsplit] at h ⊢
  calc slack ^ 4 * x < slack ^ 4 * (2 ^ 49 * 2 ^ 975 - 2 ^ 975) := mul_lt_mul_of_pos_left h (pow_pos slack_pos 4)
    _ = slack ^ 4 * (2 ^ 49 - 1) * 2 ^ 975 := by rw [mul_assoc, sub_mul, one_mul]
    _ ≤ 2 ^ 49 * 2 ^ 975 := mul_le_mul_of_nonneg_right hfour hpow.le

/-- Four roundings do not bring a number that is well above the range back into it. -/
theorem le_of_slack_mul {x y : ℚ} (h : 2 ^ 1024 + 2 ^ 975 ≤ x) (h' : x ≤ slack ^ 4 * y) : 2 ^ 1024 ≤ y := by
  have hsplit : (2 : ℚ) ^ 1024 = 2 ^ 49 * 2 ^ 975 := by rw [← pow_add]
  have hfour : slack ^ 4 * 2 ^ 49 ≤ 2 ^ 49 + 1 := by norm_num [slack]
  have hpow : (0 : ℚ) < 2 ^ 975 := pow_pos (by norm_num) _
  rw [hsplit] at h ⊢
  refine le_of_mul_le_mul_left ?_ (pow_pos slack_pos 4)
  calc slack ^ 4 * (2 ^ 49 * 2 ^ 975) = slack ^ 4 * 2 ^ 49 * 2 ^ 975 := (mul_assoc _ _ _).symm
    _ ≤ (2 ^ 49 + 1) * 2 ^ 975 := mul_le_mul_of_nonneg_right hfour hpow.le
    _ = 2 ^ 49 * 2 ^ 975 + 2 ^ 975 := by rw [add_mul, one_mul]
    _ ≤ slack ^ 4 * y := h.trans h'

section

variable {s : ℕ} {e : ℤ}

/-- A division does not lead out of the range. -/
theorem exists_close_of_neg (hs : s < UInt64.size) (he : e < 0) : ∃ z, Close 3 z (s * 10 ^ e) ∧
    ((scaleByTen (UInt64.ofNat s).toFloat e).isSome = true ↔ z < 2 ^ 1024) := by
  have hsize : (s : ℚ) < 2 ^ 64 := by exact_mod_cast hs
  have hpower : (0 : ℚ) < 10 ^ e := zpow_pos (by norm_num) _
  have hone : (10 : ℚ) ^ e ≤ 1 := zpow_le_one_of_nonpos₀ (by norm_num) he.le
  have hsmall : (s : ℚ) * 10 ^ e < 2 ^ 1024 := by
    calc (s : ℚ) * 10 ^ e ≤ s := mul_le_of_le_one_right (Nat.cast_nonneg _) hone
      _ < 2 ^ 64 := hsize
      _ < 2 ^ 1024 := pow_lt_pow_right₀ (by norm_num) (by norm_num)
  exact ⟨_, Close.refl (mul_nonneg (Nat.cast_nonneg _) hpower.le) 3,
    iff_of_true (isSome_scaleByTen_of_neg _ he) hsmall⟩

/-- A product with a power of ten that is in range itself. -/
theorem exists_close_of_le {p : ℕ} (hs : s < UInt64.size) (hp : p ≤ 308) : ∃ z, Close 3 z (s * 10 ^ (p : ℤ)) ∧
    ((scaleByTen (UInt64.ofNat s).toFloat p).isSome = true ↔ z < 2 ^ 1024) := by
  rw [isSome_scaleByTen_of_le _ hp, Bool.not_eq_true', zpow_natCast]
  rcases Nat.eq_zero_or_pos s with rfl | hpos
  · rw [isInf_zero_mul_powerOfTen hp, Nat.cast_zero, zero_mul]
    exact ⟨0, Close.refl le_rfl 3, iff_of_true rfl (pow_pos (by norm_num) _)⟩
  · exact exists_close_mul_powerOfTen hpos hs hp

/-- The least power of ten that is not in range. -/
theorem two_pow_lt_ten_pow : (2 : ℚ) ^ 1024 < 10 ^ 309 := by
  have hlarge : 2 ^ 1024 < 10 ^ 309 := by decide +kernel
  exact_mod_cast hlarge

/-- With a power of ten beyond the range there is no product but zero. -/
theorem exists_close_of_gt (hs : s < UInt64.size) (he : 308 < e) : ∃ z, Close 3 z (s * 10 ^ e) ∧
    ((scaleByTen (UInt64.ofNat s).toFloat e).isSome = true ↔ z < 2 ^ 1024) := by
  rw [isSome_scaleByTen_of_gt _ he, toFloat_beq_zero hs, decide_eq_true_iff]
  rcases Nat.eq_zero_or_pos s with rfl | hpos
  · rw [Nat.cast_zero, zero_mul]
    exact ⟨0, Close.refl le_rfl 3, iff_of_true rfl (pow_pos (by norm_num) _)⟩
  · have hone : (1 : ℚ) ≤ s := by exact_mod_cast hpos
    have hpower : (0 : ℚ) < 10 ^ e := zpow_pos (by norm_num) _
    have hlarge : (2 : ℚ) ^ 1024 ≤ s * 10 ^ e := by
      calc (2 : ℚ) ^ 1024 ≤ 10 ^ 309 := two_pow_lt_ten_pow.le
        _ = (10 : ℚ) ^ (309 : ℤ) := (zpow_natCast _ 309).symm
        _ ≤ 10 ^ e := zpow_le_zpow_right₀ (by norm_num) he
        _ ≤ s * 10 ^ e := le_mul_of_one_le_left hpower.le hone
    exact ⟨_, Close.refl (mul_nonneg (Nat.cast_nonneg _) hpower.le) 3,
      iff_of_false (Nat.ne_of_gt hpos) (not_lt.mpr hlarge)⟩

/-- **Whether a number times a power of ten is in range is told by a number within three roundings of the product.** -/
theorem exists_close_scaleByTen (hs : s < UInt64.size) (e : ℤ) : ∃ z, Close 3 z (s * 10 ^ e) ∧
    ((scaleByTen (UInt64.ofNat s).toFloat e).isSome = true ↔ z < 2 ^ 1024) := by
  rcases lt_or_ge e 0 with hneg | hnonneg
  · exact exists_close_of_neg hs hneg
  rcases lt_or_ge 308 e with hgt | hle
  · exact exists_close_of_gt hs hgt
  obtain ⟨p, rfl⟩ := Int.eq_ofNat_of_zero_le hnonneg
  exact exists_close_of_le hs (by omega)

end

/-! ## Numerals -/

/-- What is left out is less than a rounding may change: a number that fills 64 bits is large. -/
theorem Taken.close {s dropped n : ℕ} (h : Taken s dropped n) : Close 1 (s * 10 ^ dropped) n := by
  have hten : (0 : ℚ) ≤ 10 ^ dropped := pow_nonneg (by norm_num) _
  rcases h with ⟨-, ⟨rfl, rfl⟩ | ⟨hfull, hlow, hhigh⟩⟩
  · rw [pow_zero, mul_one]
    exact Close.refl (Nat.cast_nonneg _) 1
  · have hlarge : (2 : ℚ) ^ 64 ≤ s * 10 + 9 := by exact_mod_cast hfull
    have hcut : ((s : ℚ) + 10) ≤ slack * s := by
      unfold slack
      linarith
    refine close_of_le (mul_nonneg (Nat.cast_nonneg _) hten) (by exact_mod_cast hlow) ?_
    calc (n : ℚ) ≤ (s + 10) * 10 ^ dropped := by exact_mod_cast hhigh.le
      _ ≤ slack * s * 10 ^ dropped := mul_le_mul_of_nonneg_right hcut hten
      _ = slack * (s * 10 ^ dropped) := mul_assoc _ _ _

namespace Numeral

variable {n : Numeral}

/-- What a numeral writes, its sign apart: its digits, as if there were no point, times the power of ten that the point
and the exponent ask for. -/
def magnitude (n : Numeral) : ℚ :=
  natOfDecimal (n.whole ++ n.fraction) * 10 ^ (n.exponentValue - n.fraction.length)

/-- What is left out changes a numeral by no more than a rounding does. -/
theorem close_magnitude (h : n.AllDecimal) :
    n.significand < UInt64.size ∧ Close 1 (n.significand * 10 ^ n.scale) n.magnitude := by
  obtain ⟨dropped, htaken, hscale⟩ := exists_taken h
  have hpower : (0 : ℚ) ≤ 10 ^ (n.exponentValue - n.fraction.length) := (zpow_pos (by norm_num) _).le
  have hclose := htaken.close.mul_right hpower
  rw [mul_assoc, ← zpow_natCast, ← zpow_add₀ (by norm_num), ← hscale] at hclose
  exact ⟨htaken.1, hclose⟩

/-- A numeral is in range exactly if some number within four roundings of its magnitude is. -/
theorem exists_close_magnitude (h : n.AllDecimal) :
    ∃ z, Close 4 z n.magnitude ∧ (n.float?.isSome = true ↔ z < 2 ^ 1024) := by
  obtain ⟨hfits, hclose⟩ := close_magnitude h
  obtain ⟨z, hz, hrange⟩ := exists_close_scaleByTen hfits n.scale
  have hfour := hz.trans hclose
  rw [isSome_float?]
  exact ⟨z, hfour, hrange⟩

/-- A numeral without fraction and exponent writes the number of its digits. -/
theorem magnitude_whole (negative : Bool) (whole : List Char) :
    magnitude ⟨negative, whole, [], none⟩ = natOfDecimal whole := by
  simp [magnitude, exponentValue]

/-- A numeral that is read as an integer of 64 bits writes that integer. -/
theorem magnitude_of_integer? {i : ℤ} (h : n.integer? = some i) :
    n.magnitude = i.natAbs ∧ i.natAbs < UInt64.size := by
  obtain ⟨negative, whole, fraction, exponent⟩ := n
  obtain ⟨hplain, hvalue⟩ := Option.ite_none_right_eq_some.mp h
  obtain ⟨hfraction, hexponent⟩ := Bool.and_eq_true_iff.mp hplain
  obtain rfl := List.isEmpty_iff.mp hfraction
  obtain rfl := Option.isNone_iff_eq_none.mp hexponent
  rw [magnitude_whole]
  cases negative with
  | true =>
    obtain ⟨hrange, hvalue⟩ := Option.ite_none_right_eq_some.mp hvalue
    obtain rfl : -(natOfDecimal whole : ℤ) = i := Option.some.inj hvalue
    have hpos : 0 < natOfDecimal whole := hrange.1
    have hsize : 2 * natOfDecimal whole ≤ UInt64.size := hrange.2
    rw [Int.natAbs_neg, Int.natAbs_natCast]
    exact ⟨rfl, by omega⟩
  | false =>
    obtain ⟨hrange, hvalue⟩ := Option.ite_none_right_eq_some.mp hvalue
    obtain rfl : (natOfDecimal whole : ℤ) = i := Option.some.inj hvalue
    exact ⟨rfl, hrange⟩

/-- **A numeral well below the largest floating-point number, which is `2 ^ 1024 - 2 ^ 971`, has a value.** -/
theorem isSome_value?_of_magnitude_lt (h : n.AllDecimal) (hlt : n.magnitude < 2 ^ 1024 - 2 ^ 975) :
    n.value?.isSome = true := by
  obtain ⟨z, hz, hrange⟩ := exists_close_magnitude h
  have hfloat := hrange.mpr (lt_of_le_of_lt hz.1 (slack_mul_lt hlt))
  unfold value?
  cases n.integer? with
  | some i => rfl
  | none => rwa [Option.isSome_map]

/-- **A numeral with a value is not well above the largest floating-point number.** -/
theorem magnitude_lt_of_isSome_value? (h : n.AllDecimal) (hvalue : n.value?.isSome = true) :
    n.magnitude < 2 ^ 1024 + 2 ^ 975 := by
  by_contra hnot
  have hle := not_lt.mp hnot
  unfold value? at hvalue
  cases hinteger : n.integer? with
  | some i =>
    obtain ⟨hmagnitude, hsize⟩ := magnitude_of_integer? hinteger
    have hsmall : n.magnitude < 2 ^ 64 := by
      rw [hmagnitude]
      exact_mod_cast hsize
    have hlarge : (2 : ℚ) ^ 64 < 2 ^ 1024 := pow_lt_pow_right₀ (by norm_num) (by norm_num)
    have hrest : (0 : ℚ) < 2 ^ 975 := pow_pos (by norm_num) _
    exact hnot (hsmall.trans (hlarge.trans (lt_add_of_pos_right _ hrest)))
  | none =>
    rw [hinteger, Option.isSome_map] at hvalue
    obtain ⟨z, hz, hrange⟩ := exists_close_magnitude h
    exact absurd (hrange.mp hvalue) (not_lt.mpr (le_of_slack_mul hle hz.2))

/-- Between the two bounds the roundings decide. This numeral, 1.7976931348623157081e308, is below the largest
floating-point number, and has no value all the same. -/
example : (⟨false, ['1'], "7976931348623157081".toList, some (false, ['3', '0', '8'])⟩ : Numeral).value?.isSome =
    false := by
  decide +kernel

end Numeral

/-! ## Documents -/

theorem Numeral.Written.allDecimal {n : Numeral} {cs : List Char} (h : n.Written cs) : n.AllDecimal := by
  cases h with
  | intro hw _ hf _ =>
    refine allDigits_append.mpr ⟨hw.2, ?_⟩
    cases hf with
    | none => exact List.forall_mem_nil _
    | some h => exact h.2

mutual

/-- The numerals in a written document consist of digits. -/
theorem Doc.Written.allDecimal {d : Doc} {cs : List Char} (h : d.Written cs) : ∀ n ∈ d.numerals, n.AllDecimal := by
  cases h with
  | null | true | false | literal _ => exact List.forall_mem_nil _
  | numeral h => exact List.forall_mem_singleton.mpr h.allDecimal
  | array h => exact Items.Written.allDecimal h
  | object h => exact Entries.Written.allDecimal h

theorem Items.Written.allDecimal {first : Bool} {items : Items} {cs : List Char} (h : items.Written first cs) :
    ∀ n ∈ items.numerals, n.AllDecimal := by
  cases h with
  | closed _ => exact List.forall_mem_nil _
  | cons _ h hrest => exact List.forall_mem_append.mpr ⟨Doc.Written.allDecimal h, Items.Written.allDecimal hrest⟩

theorem Entries.Written.allDecimal {first : Bool} {entries : Entries} {cs : List Char}
    (h : entries.Written first cs) : ∀ n ∈ entries.numerals, n.AllDecimal := by
  cases h with
  | closed _ => exact List.forall_mem_nil _
  | cons _ _ _ h hrest =>
    exact List.forall_mem_append.mpr ⟨Doc.Written.allDecimal h, Entries.Written.allDecimal hrest⟩

end

theorem Doc.IsText.allDecimal {d : Doc} {cs : List Char} (h : d.IsText cs) : ∀ n ∈ d.numerals, n.AllDecimal := by
  cases h with
  | intro _ h _ => exact h.allDecimal

/-- **All numerals of a document have a value if each of them is well below the largest floating-point number.** -/
theorem Doc.IsText.valued_of_magnitude_lt {d : Doc} {cs : List Char} (h : d.IsText cs)
    (hlt : ∀ n ∈ d.numerals, n.magnitude < 2 ^ 1024 - 2 ^ 975) : Valued d.numerals :=
  fun n hn => Numeral.isSome_value?_of_magnitude_lt (h.allDecimal n hn) (hlt n hn)

/-- **If all numerals of a document have a value, none of them is well above the largest floating-point number.** -/
theorem Doc.IsText.magnitude_lt_of_valued {d : Doc} {cs : List Char} (h : d.IsText cs) (hvalued : Valued d.numerals) :
    ∀ n ∈ d.numerals, n.magnitude < 2 ^ 1024 + 2 ^ 975 :=
  fun n hn => Numeral.magnitude_lt_of_isSome_value? (h.allDecimal n hn) (hvalued n hn)

end ClientRoster.Json
