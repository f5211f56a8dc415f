import ClientRoster.Text.Fields

/-!
# `ClientRoster.Proofs.Text.Fields` — fields and numbers are read back

Pieces without the separator are found again in the text that joins them, and a number is found again in its digits.
What only digits are read from holds nothing but digits, so a text with another character in it is no number.

## Contents
- **`fields_joined`**, `mem_joined`: pieces and the text that joins them.
- `mem_toDigits`, **`natOfDigits?_toDigits`**: numbers and their digits.
- `digit_of_natOfDigits?`: the characters of a text that is read as a number.
-/

namespace ClientRoster.Text

/-! ## Fields -/

theorem fields_of_not_mem {sep : Char} {piece : List Char} (h : sep ∉ piece) : fields sep piece = [piece] := by
  induction piece with
  | nil => rfl
  | cons c piece ih =>
    obtain ⟨hc, hpiece⟩ := List.ne_and_not_mem_of_not_mem_cons h
    rw [fields, if_neg (Ne.symm hc), ih hpiece]

theorem fields_append {sep : Char} {piece : List Char} (h : sep ∉ piece) (rest : List Char) :
    fields sep (piece ++ sep :: rest) = piece :: fields sep rest := by
  induction piece with
  | nil => rw [List.nil_append, fields, if_pos rfl]
  | cons c piece ih =>
    obtain ⟨hc, hpiece⟩ := List.ne_and_not_mem_of_not_mem_cons h
    rw [List.cons_append, fields, if_neg (Ne.symm hc), ih hpiece]

/-- **Pieces without the separator are found again in the joined text.** -/
theorem fields_joined {sep : Char} {piece : List Char} {pieces : List (List Char)}
    (h : ∀ p ∈ piece :: pieces, sep ∉ p) : fields sep (joined sep (piece :: pieces)) = piece :: pieces := by
  induction pieces generalizing piece with
  | nil => exact fields_of_not_mem (h piece List.mem_cons_self)
  | cons next pieces ih =>
    have hrest : ∀ p ∈ next :: pieces, sep ∉ p := fun p hp => h p (List.mem_cons_of_mem piece hp)
    rw [joined, fields_append (h piece List.mem_cons_self), ih hrest]

/-- The characters of a joined text are those of its pieces, and separators if there are two pieces or more. -/
theorem mem_joined {sep c : Char} {pieces : List (List Char)} :
    c ∈ joined sep pieces ↔ (∃ p ∈ pieces, c ∈ p) ∨ (c = sep ∧ 2 ≤ pieces.length) := by
  fun_induction joined sep pieces with
  | case1 => simp
  | case2 piece => simp
  | case3 piece next pieces ih =>
    have htwo : 2 ≤ (piece :: next :: pieces).length := by simp
    rw [List.mem_append, List.mem_cons, ih]
    constructor
    · rintro (hc | rfl | ⟨p, hp, hc⟩ | ⟨rfl, -⟩)
      · exact .inl ⟨piece, List.mem_cons_self, hc⟩
      · exact .inr ⟨rfl, htwo⟩
      · exact .inl ⟨p, List.mem_cons_of_mem piece hp, hc⟩
      · exact .inr ⟨rfl, htwo⟩
    · rintro (⟨p, hp, hc⟩ | ⟨rfl, -⟩)
      · rcases List.mem_cons.mp hp with rfl | hmem
        · exact .inl hc
        · exact .inr (.inr (.inl ⟨p, hmem, hc⟩))
      · exact .inr (.inl rfl)

/-! ## Numbers -/

theorem digitValue?_digitChar : ∀ b, b ≤ 16 → ∀ d, d < b → digitValue? b (Nat.digitChar d) = some d := by
  decide

/-- The digits of a number are digits of its base. -/
theorem mem_toDigits {b n : Nat} (hb : 1 < b) {c : Char} (h : c ∈ Nat.toDigits b n) :
    ∃ d, d < b ∧ c = Nat.digitChar d := by
  induction n using Nat.strongRecOn with
  | ind n ih =>
    rw [Nat.toDigits_eq_if hb] at h
    split at h
    · next hn => exact ⟨n, hn, List.mem_singleton.mp h⟩
    · next hn =>
      rcases List.mem_append.mp h with h | h
      · exact ih (n / b) (Nat.div_lt_self (by omega) hb) h
      · exact ⟨n % b, Nat.mod_lt n (by omega), List.mem_singleton.mp h⟩

theorem natFrom?_append {b high value : Nat} {front : List Char} (h : natFrom? b high front = some value)
    (back : List Char) : natFrom? b high (front ++ back) = natFrom? b value back := by
  induction front generalizing high with
  | nil =>
    obtain rfl := Option.some.inj h
    rfl
  | cons c front ih =>
    obtain ⟨d, hd, hfront⟩ := Option.bind_eq_some_iff.mp h
    rw [List.cons_append, natFrom?, hd]
    exact ih hfront

theorem natFrom?_toDigits {b : Nat} (hb : 1 < b) (hb' : b ≤ 16) (n : Nat) :
    natFrom? b 0 (Nat.toDigits b n) = some n := by
  induction n using Nat.strongRecOn with
  | ind n ih =>
    rw [Nat.toDigits_eq_if hb]
    split
    · next hn => simp [natFrom?, digitValue?_digitChar b hb' n hn]
    · next hn =>
      have hlast := digitValue?_digitChar b hb' (n % b) (Nat.mod_lt n (by omega))
      have hvalue : n / b * b + n % b = n := Nat.div_add_mod' n b
      rw [natFrom?_append (ih (n / b) (Nat.div_lt_self (by omega) hb))]
      simp [natFrom?, hlast, hvalue]

/-- **A number is found again in its digits.** -/
theorem natOfDigits?_toDigits {b : Nat} (hb : 1 < b) (hb' : b ≤ 16) (n : Nat) :
    natOfDigits? b (Nat.toDigits b n) = some n := by
  unfold natOfDigits?
  split
  · next hnil => exact absurd hnil Nat.toDigits_ne_nil
  · exact natFrom?_toDigits hb hb' n

/-- A number other than zero does not begin with the digit zero. -/
theorem head?_toDigits_ne_zero {b n : Nat} (hb : 1 < b) (hb' : b ≤ 16) (hn : n ≠ 0) :
    (Nat.toDigits b n).head? ≠ some '0' := by
  have hdigit : ∀ d, d < 16 → d ≠ 0 → Nat.digitChar d ≠ '0' := by decide
  induction n using Nat.strongRecOn with
  | ind n ih =>
    rw [Nat.toDigits_eq_if hb]
    split
    · next hlt => simpa using hdigit n (by omega) hn
    · next hge =>
      have hne : n / b ≠ 0 := by
        have := Nat.div_pos (Nat.not_lt.mp hge) (by omega)
        omega
      have hhead := ih (n / b) (Nat.div_lt_self (by omega) hb) hne
      cases hfront : Nat.toDigits b (n / b) with
      | nil => exact absurd hfront Nat.toDigits_ne_nil
      | cons c front =>
        rw [hfront] at hhead
        exact hhead

/-- A text that is read as a number holds digits only. -/
theorem digit_of_natOfDigits? {b value : Nat} {digits : List Char} (h : natOfDigits? b digits = some value)
    {c : Char} (hc : c ∈ digits) : digitValue? b c ≠ none := by
  have hfrom : ∃ high, natFrom? b high digits = some value := by
    unfold natOfDigits? at h
    split at h
    · cases h
    · exact ⟨0, h⟩
  obtain ⟨high, hfrom⟩ := hfrom
  clear h
  induction digits generalizing high with
  | nil => cases hc
  | cons c' digits ih =>
    obtain ⟨d, hd, hrest⟩ := Option.bind_eq_some_iff.mp hfrom
    rcases List.mem_cons.mp hc with rfl | hmem
    · simp [hd]
    · exact ih hmem _ hrest

end ClientRoster.Text
