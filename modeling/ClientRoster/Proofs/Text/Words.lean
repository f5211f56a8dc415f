import Mathlib.Data.List.TakeWhile
import ClientRoster.Text.Blank
import ClientRoster.Text.Lower

/-!
# `ClientRoster.Proofs.Text.Words` — words in letters of any case, between blanks

Some texts are read without regard to the case of their letters and to the blanks around them. Small letters are those
of every script, and a few letters of other scripts have small letters among those from `a` to `z`. The words that
matter here have none of these, so that only the case of the letters from `A` to `Z` counts.

## Contents
- `exists_trim`, `trim_between`: what is cut off, and what is left.
- `isPlain`, `lowered_eq_iff`: a word whose characters are small letters of nothing but letters from `A` to `Z`.
- `Spells`, **`lowered_trim_eq_iff`**: the texts that are read as a word.
-/

namespace ClientRoster.Text

/-! ## Blanks at the ends -/

theorem exists_trimEnd (text : List Char) :
    ∃ back, text = trimEnd text ++ back ∧ ∀ c ∈ back, isBlank c = true := by
  induction text with
  | nil => exact ⟨[], rfl, by simp⟩
  | cons c rest ih =>
    obtain ⟨back, hrest, hback⟩ := ih
    unfold trimEnd
    cases hkept : trimEnd rest with
    | nil =>
      -- the rest is all blank, so it hangs on the first character whether it goes too
      have hblank : rest = back := by simpa [hkept] using hrest
      by_cases hc : isBlank c = true
      · refine ⟨c :: back, ?_, List.forall_mem_cons.mpr ⟨hc, hback⟩⟩
        simp [hc, hblank]
      · refine ⟨back, ?_, hback⟩
        simp [hc, hblank]
    | cons d more =>
      refine ⟨back, ?_, hback⟩
      rw [hkept] at hrest
      exact congrArg (c :: ·) hrest

/-- What is cut off are blanks at both ends. -/
theorem exists_trim (text : List Char) :
    ∃ front back, text = front ++ trim text ++ back ∧ (∀ c ∈ front, isBlank c = true) ∧
      ∀ c ∈ back, isBlank c = true := by
  obtain ⟨back, hrest, hback⟩ := exists_trimEnd (text.dropWhile isBlank)
  refine ⟨text.takeWhile isBlank, back, ?_, ?_, hback⟩
  · rw [trim, List.append_assoc, ← hrest, List.takeWhile_append_dropWhile]
  · intro c hc
    exact List.mem_takeWhile_imp hc

theorem trimEnd_blanks {back : List Char} (h : ∀ c ∈ back, isBlank c = true) : trimEnd back = [] := by
  induction back with
  | nil => rfl
  | cons c rest ih =>
    obtain ⟨hc, hrest⟩ := List.forall_mem_cons.mp h
    rw [trimEnd, ih hrest]
    exact if_pos hc

theorem trimEnd_append_blanks {core back : List Char} (hcore : ∀ c ∈ core, isBlank c = false)
    (hback : ∀ c ∈ back, isBlank c = true) : trimEnd (core ++ back) = core := by
  -- along the characters that stay; what is behind them is all blank
  induction core with
  | nil => exact trimEnd_blanks hback
  | cons c rest ih =>
    obtain ⟨hc, hrest⟩ := List.forall_mem_cons.mp hcore
    rw [List.cons_append, trimEnd, ih hrest]
    cases rest with
    | nil => simp [hc]
    | cons d more => rfl

/-- A text without blanks is what is left of it between blanks. -/
theorem trim_between {front core back : List Char} (hfront : ∀ c ∈ front, isBlank c = true)
    (hcore : ∀ c ∈ core, isBlank c = false) (hback : ∀ c ∈ back, isBlank c = true) :
    trim (front ++ core ++ back) = core := by
  rw [trim, List.append_assoc, List.dropWhile_append_of_pos hfront]
  cases core with
  | nil =>
    have hdrop : back.dropWhile isBlank = [] := List.dropWhile_eq_nil_iff.mpr hback
    rw [List.nil_append, hdrop]
    rfl
  | cons c rest =>
    obtain ⟨hc, -⟩ := List.forall_mem_cons.mp hcore
    have hstay : (c :: rest ++ back).dropWhile isBlank = c :: rest ++ back :=
      List.dropWhile_cons_of_neg (by simp [hc])
    rw [hstay]
    exact trimEnd_append_blanks hcore hback

/-! ## Letters of any case -/

/-- Is the character a digit or a small letter from `a` to `z`, and one that no letter of another script has for its
small letter? That leaves out the `k`, which is the small letter of the kelvin sign. -/
def isPlain (c : Char) : Bool := (c.isLower || c.isDigit) && decide (c ≠ 'k')

theorem toNat_of_isPlain {c : Char} (h : isPlain c = true) : 48 ≤ c.toNat ∧ c.toNat < 128 := by
  simp only [isPlain, Bool.and_eq_true, Bool.or_eq_true] at h
  obtain ⟨hlower | hdigit, -⟩ := h
  · obtain ⟨hfirst, hlast⟩ := (Bool.and_eq_true _ _).mp hlower
    have hlow : 97 ≤ c.toNat := UInt32.le_iff_toNat_le.mp (of_decide_eq_true hfirst)
    have hhigh : c.toNat ≤ 122 := UInt32.le_iff_toNat_le.mp (of_decide_eq_true hlast)
    omega
  · have hbounds : 48 ≤ c.toNat ∧ c.toNat ≤ 57 := Char.isDigit_iff_toNat.mp hdigit
    omega

/-- What holds of the first 128 code points holds of the characters that have them. -/
theorem ascii_forall {P : Char → Prop} (h : ∀ n, n < 128 → P (Char.ofNat n)) {c : Char} (hc : c.toNat < 128) : P c := by
  have hof := h c.toNat hc
  rwa [Char.ofNat_toNat] at hof

theorem toLower_of_not_ascii {c : Char} (h : 128 ≤ c.toNat) : c.toLower = c := by
  have hnot : ¬ ('A'.val ≤ c.val ∧ c.val ≤ 'Z'.val) := by
    rintro ⟨-, hupper⟩
    have hhigh : c.toNat ≤ 90 := UInt32.le_iff_toNat_le.mp hupper
    omega
  exact dif_neg hnot

theorem smallOf_of_ascii {c : Char} (h : c.toNat < 128) : smallOf c = c.toLower := by
  have hall : ∀ n, n < 128 → smallOf (Char.ofNat n) = (Char.ofNat n).toLower := by decide +kernel
  exact ascii_forall (P := fun c => smallOf c = c.toLower) hall h

/-- Beyond the letters from `A` to `Z`, the ranges lead to a `k` or away from the first 128 code points. -/
theorem small_caseRanges : ∀ r ∈ caseRanges,
    r.last < 128 ∨ (r.first = r.last ∧ r.small = 'k'.toNat) ∨ 128 ≤ r.small := by
  decide +kernel

/-- A number that is no code point makes the character zero. -/
theorem toNat_ofNat_or (n : Nat) : (Char.ofNat n).toNat = n ∨ (Char.ofNat n).toNat = 0 := by
  by_cases h : n.isValidChar
  · have hof : Char.ofNat n = Char.ofNatAux n h := dif_pos h
    rw [hof]
    exact Or.inl rfl
  · have hof : Char.ofNat n = '\x00' := dif_neg h
    rw [hof]
    exact Or.inr rfl

/-- No letter of another script has a plain small letter. -/
theorem not_isPlain_smallOf {c : Char} (h : 128 ≤ c.toNat) : isPlain (smallOf c) = false := by
  rw [Bool.eq_false_iff]
  intro hplain
  have hbounds := toNat_of_isPlain hplain
  unfold smallOf at hplain hbounds
  cases hfind : caseRanges.find? fun r => r.holds c.toNat with
  | none =>
    rw [hfind] at hbounds
    exact absurd hbounds.2 (Nat.not_lt.mpr h)
  | some r =>
    rw [hfind] at hplain hbounds
    have hholds := List.find?_some hfind
    simp only [CaseRange.holds, Bool.and_eq_true, decide_eq_true_eq] at hholds
    obtain ⟨⟨hfirst, hlast⟩, -⟩ := hholds
    -- the range cannot be the one from `A` to `Z`, where this letter is not
    rcases small_caseRanges r (List.mem_of_find?_eq_some hfind) with hascii | ⟨hone, hk⟩ | hfar
    · omega
    · have hdist : c.toNat - r.first = 0 := by omega
      simp only [hdist, hk] at hplain
      exact absurd hplain (by decide)
    · have hsmall := toNat_ofNat_or (r.small + (c.toNat - r.first))
      simp only at hbounds
      omega

/-- Only a letter from `A` to `Z` or the letter itself has a plain letter for its small letter. -/
theorem smallOf_eq_iff {c d : Char} (hd : isPlain d = true) : smallOf c = d ↔ c.toLower = d := by
  by_cases hc : c.toNat < 128
  · rw [smallOf_of_ascii hc]
  · have hfar : 128 ≤ c.toNat := by omega
    rw [toLower_of_not_ascii hfar]
    constructor
    · rintro rfl
      rw [not_isPlain_smallOf hfar] at hd
      cases hd
    · rintro rfl
      exact absurd (toNat_of_isPlain hd).2 hc

/-- **In small letters a text is a plain word if and only if the letters from `A` to `Z` make the difference.** -/
theorem lowered_eq_iff {word : List Char} (hword : ∀ d ∈ word, isPlain d = true) (text : List Char) :
    lowered text = word ↔ text.map Char.toLower = word := by
  induction text generalizing word with
  | nil => exact Iff.rfl
  | cons c rest ih =>
    have hcons : lowered (c :: rest) = lowerOf c ++ lowered rest := List.flatMap_cons
    rw [hcons, List.map_cons, lowerOf]
    by_cases hdotted : c = '\u0130'
    · -- the dot that stays behind the small letter is in no plain word, and neither is the dotted letter
      rw [if_pos hdotted, hdotted]
      constructor
      · rintro rfl
        exact absurd (hword '\u0307' (by simp)) (by decide)
      · rintro rfl
        have hself : '\u0130'.toLower = '\u0130' := toLower_of_not_ascii (by decide)
        exact absurd (hword '\u0130' (by simp [hself])) (by decide)
    · rw [if_neg hdotted, List.singleton_append]
      cases word with
      | nil => simp
      | cons d more =>
        obtain ⟨hd, hmore⟩ := List.forall_mem_cons.mp hword
        rw [List.cons.injEq, List.cons.injEq, smallOf_eq_iff hd, ih hmore]

/-- A word with a `k` would also be read where the kelvin sign stands. -/
example : lowered ['\u212a'] = ['k'] ∧ ['\u212a'].map Char.toLower ≠ ['k'] := by decide +kernel

/-! ## Words -/

/-- The text is the word, in letters of any case from `A` to `Z` and `a` to `z`, and with blanks around it. -/
def Spells (word text : List Char) : Prop :=
  ∃ front core back, text = front ++ core ++ back ∧ (∀ c ∈ front, isBlank c = true) ∧
    (∀ c ∈ back, isBlank c = true) ∧ core.map Char.toLower = word

/-- A letter whose small letter is plain is not a blank. -/
theorem isBlank_of_isPlain_toLower {c : Char} (h : isPlain c.toLower = true) : isBlank c = false := by
  have hascii : c.toNat < 128 := by
    by_contra hc
    have hfar : 128 ≤ c.toNat := by omega
    rw [toLower_of_not_ascii hfar] at h
    exact hc (toNat_of_isPlain h).2
  have hall : ∀ n, n < 128 → isPlain (Char.ofNat n).toLower = true → isBlank (Char.ofNat n) = false := by
    decide +kernel
  exact ascii_forall (P := fun c => isPlain c.toLower = true → isBlank c = false) hall hascii h

/-- **A text is read as a plain word if and only if it spells it.** -/
theorem lowered_trim_eq_iff {word : List Char} (hword : ∀ d ∈ word, isPlain d = true) (text : List Char) :
    lowered (trim text) = word ↔ Spells word text := by
  rw [lowered_eq_iff hword]
  constructor
  · intro hcore
    obtain ⟨front, back, htext, hfront, hback⟩ := exists_trim text
    exact ⟨front, trim text, back, htext, hfront, hback, hcore⟩
  · rintro ⟨front, core, back, rfl, hfront, hback, hcore⟩
    have hfree : ∀ c ∈ core, isBlank c = false := by
      intro c hc
      apply isBlank_of_isPlain_toLower
      apply hword
      rw [← hcore]
      exact List.mem_map_of_mem hc
    rw [trim_between hfront hfree hback, hcore]

end ClientRoster.Text
