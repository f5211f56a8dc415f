import ClientRoster.Proofs.Json.Reading

/-!
# `ClientRoster.Proofs.Json.Flaw` — which documents have no flaw

A reader who skips a document only asks whether it goes on to its end. A reader who keeps it asks more: how deep the
document is, what its numerals are worth, and whether its literals spell texts. These are measures of the whole
document, keys included, and the first flaw is absent exactly if all of them are in order.

## Contents
- `Doc.depth`, `Doc.numerals`, `Doc.literals`, and the same for items and entries.
- `flaw?_skipped_eq_none_iff`: a reader who skips.
- `Valued`, `Spelled`, **`flaw?_kept_eq_none_iff`**: a reader who keeps.
-/

namespace ClientRoster.Json

/-! ## Measures -/

mutual

/-- How many arrays and objects stand within each other. -/
def Doc.depth : Doc → Nat
  | .null | .bool _ | .numeral _ | .literal _ | .broken _ => 0
  | .array items => items.depth + 1
  | .object entries => entries.depth + 1

/-- The depth of the deepest item. -/
def Items.depth : Items → Nat
  | .closed | .cut _ => 0
  | .cons item rest => max item.depth rest.depth

/-- The depth of the deepest value. -/
def Entries.depth : Entries → Nat
  | .closed | .cut _ => 0
  | .cons _ value rest => max value.depth rest.depth

end

mutual

/-- The numerals in a document, from the left. -/
def Doc.numerals : Doc → List Numeral
  | .null | .bool _ | .literal _ | .broken _ => []
  | .numeral n => [n]
  | .array items => items.numerals
  | .object entries => entries.numerals

/-- The numerals in some items. -/
def Items.numerals : Items → List Numeral
  | .closed | .cut _ => []
  | .cons item rest => item.numerals ++ rest.numerals

/-- The numerals in some entries. -/
def Entries.numerals : Entries → List Numeral
  | .closed | .cut _ => []
  | .cons _ value rest => value.numerals ++ rest.numerals

end

mutual

/-- The literals in a document, keys among them, from the left. -/
def Doc.literals : Doc → List Literal
  | .null | .bool _ | .numeral _ | .broken _ => []
  | .literal l => [l]
  | .array items => items.literals
  | .object entries => entries.literals

/-- The literals in some items. -/
def Items.literals : Items → List Literal
  | .closed | .cut _ => []
  | .cons item rest => item.literals ++ rest.literals

/-- The literals in some entries: the keys and those in the values. -/
def Entries.literals : Entries → List Literal
  | .closed | .cut _ => []
  | .cons key value rest => key :: (value.literals ++ rest.literals)

end

/-! ## A reader who skips -/

theorem Literal.flaw?_skipped (l : Literal) : l.flaw? .skipped = none := by
  cases l <;> rfl

mutual

/-- Whoever skips a document asks for its end only. -/
theorem Doc.flaw?_skipped_eq_none_iff (d : Doc) : d.flaw? .skipped = none ↔ d.Complete := by
  match d with
  | .null | .bool _ | .numeral _ | .broken _ => simp [Doc.flaw?, Doc.Complete, Numeral.flaw?]
  | .literal l => simp [Doc.flaw?, Doc.Complete, Literal.flaw?_skipped]
  | .array items => exact Items.flaw?_skipped_eq_none_iff items
  | .object entries => exact Entries.flaw?_skipped_eq_none_iff entries

theorem Items.flaw?_skipped_eq_none_iff (items : Items) : items.flaw? .skipped = none ↔ items.Complete := by
  match items with
  | .closed | .cut _ => simp [Items.flaw?, Items.Complete]
  | .cons item rest =>
    rw [Items.flaw?, Option.or_eq_none_iff, Doc.flaw?_skipped_eq_none_iff item,
      Items.flaw?_skipped_eq_none_iff rest, Items.Complete]

theorem Entries.flaw?_skipped_eq_none_iff (entries : Entries) :
    entries.flaw? .skipped = none ↔ entries.Complete := by
  match entries with
  | .closed | .cut _ => simp [Entries.flaw?, Entries.Complete]
  | .cons key value rest =>
    rw [Entries.flaw?, Option.or_eq_none_iff, Option.or_eq_none_iff, Doc.flaw?_skipped_eq_none_iff value,
      Entries.flaw?_skipped_eq_none_iff rest, Entries.Complete]
    simp [Literal.flaw?_skipped]

end

/-! ## A reader who keeps -/

/-- Each numeral has a value. `Doc.IsText.valued_of_magnitude_lt` and `Doc.IsText.magnitude_lt_of_valued` tell which
ones do from the numbers that they write. -/
def Valued (ns : List Numeral) : Prop := ∀ n ∈ ns, n.value?.isSome = true

/-- Each literal spells a text. -/
def Spelled (ls : List Literal) : Prop := ∀ l ∈ ls, l ≠ .unpaired

instance (ns : List Numeral) : Decidable (Valued ns) := List.decidableBAll _ ns

instance (ls : List Literal) : Decidable (Spelled ls) := List.decidableBAll _ ls

theorem valued_append {ms ns : List Numeral} : Valued (ms ++ ns) ↔ Valued ms ∧ Valued ns :=
  List.forall_mem_append

theorem spelled_append {ls ms : List Literal} : Spelled (ls ++ ms) ↔ Spelled ls ∧ Spelled ms :=
  List.forall_mem_append

theorem spelled_cons {l : Literal} {ls : List Literal} : Spelled (l :: ls) ↔ l ≠ .unpaired ∧ Spelled ls :=
  List.forall_mem_cons

theorem Literal.flaw?_kept_eq_none_iff (l : Literal) (levels : Nat) :
    l.flaw? (.kept levels) = none ↔ l ≠ .unpaired := by
  cases l <;> simp [Literal.flaw?]

theorem Numeral.flaw?_kept_eq_none_iff (n : Numeral) (levels : Nat) :
    n.flaw? (.kept levels) = none ↔ n.value?.isSome = true := by
  cases h : n.value? <;> simp [Numeral.flaw?, h]

mutual

/-- **Whoever keeps a document finds no flaw in it exactly if it goes on to its end, is no deeper than allowed, and all
its numerals and literals have a meaning.** -/
theorem Doc.flaw?_kept_eq_none_iff (d : Doc) (levels : Nat) : d.flaw? (.kept levels) = none ↔
    d.Complete ∧ d.depth ≤ levels ∧ Valued d.numerals ∧ Spelled d.literals := by
  match d, levels with
  | .null, _ | .bool _, _ | .broken _, _ =>
    simp [Doc.flaw?, Doc.Complete, Doc.depth, Doc.numerals, Doc.literals, Valued, Spelled]
  | .numeral n, levels =>
    simp [Doc.flaw?, Doc.Complete, Doc.depth, Doc.numerals, Doc.literals, Valued, Spelled,
      Numeral.flaw?_kept_eq_none_iff]
  | .literal l, levels =>
    simp [Doc.flaw?, Doc.Complete, Doc.depth, Doc.numerals, Doc.literals, Valued, Spelled,
      Literal.flaw?_kept_eq_none_iff]
  | .array items, 0 | .object entries, 0 => simp [Doc.flaw?, Doc.depth]
  | .array items, levels + 1 =>
    -- the brackets take one level
    have h := Items.flaw?_kept_eq_none_iff items levels
    simpa [Doc.flaw?, Doc.Complete, Doc.depth, Doc.numerals, Doc.literals] using h
  | .object entries, levels + 1 =>
    have h := Entries.flaw?_kept_eq_none_iff entries levels
    simpa [Doc.flaw?, Doc.Complete, Doc.depth, Doc.numerals, Doc.literals] using h

theorem Items.flaw?_kept_eq_none_iff (items : Items) (levels : Nat) : items.flaw? (.kept levels) = none ↔
    items.Complete ∧ items.depth ≤ levels ∧ Valued items.numerals ∧ Spelled items.literals := by
  match items with
  | .closed | .cut _ =>
    simp [Items.flaw?, Items.Complete, Items.depth, Items.numerals, Items.literals, Valued, Spelled]
  | .cons item rest =>
    rw [Items.flaw?, Option.or_eq_none_iff, Doc.flaw?_kept_eq_none_iff item,
      Items.flaw?_kept_eq_none_iff rest, Items.Complete, Items.depth, Items.numerals, Items.literals,
      Nat.max_le, valued_append, spelled_append]
    constructor
    · rintro ⟨⟨hc, hd, hn, hl⟩, hc', hd', hn', hl'⟩
      exact ⟨⟨hc, hc'⟩, ⟨hd, hd'⟩, ⟨hn, hn'⟩, hl, hl'⟩
    · rintro ⟨⟨hc, hc'⟩, ⟨hd, hd'⟩, ⟨hn, hn'⟩, hl, hl'⟩
      exact ⟨⟨hc, hd, hn, hl⟩, hc', hd', hn', hl'⟩

theorem Entries.flaw?_kept_eq_none_iff (entries : Entries) (levels : Nat) :
    entries.flaw? (.kept levels) = none ↔
      entries.Complete ∧ entries.depth ≤ levels ∧ Valued entries.numerals ∧ Spelled entries.literals := by
  match entries with
  | .closed | .cut _ =>
    simp [Entries.flaw?, Entries.Complete, Entries.depth, Entries.numerals, Entries.literals, Valued, Spelled]
  | .cons key value rest =>
    rw [Entries.flaw?, Option.or_eq_none_iff, Option.or_eq_none_iff, Literal.flaw?_kept_eq_none_iff,
      Doc.flaw?_kept_eq_none_iff value, Entries.flaw?_kept_eq_none_iff rest, Entries.Complete, Entries.depth,
      Entries.numerals, Entries.literals, Nat.max_le, valued_append, spelled_cons, spelled_append]
    constructor
    · rintro ⟨hk, ⟨hc, hd, hn, hl⟩, hc', hd', hn', hl'⟩
      exact ⟨⟨hc, hc'⟩, ⟨hd, hd'⟩, ⟨hn, hn'⟩, hk, hl, hl'⟩
    · rintro ⟨⟨hc, hc'⟩, ⟨hd, hd'⟩, ⟨hn, hn'⟩, hk, hl, hl'⟩
      exact ⟨hk, ⟨hc, hd, hn, hl⟩, hc', hd', hn', hl'⟩

end

/-! ## Documents that are made -/

theorem flaw?_text (s : String) (care : Care) : (Doc.text s).flaw? care = none := by
  cases care <;> rfl

theorem flaw?_list {items : List Doc} {levels : Nat} (h : ∀ d ∈ items, d.flaw? (.kept levels) = none) :
    (Doc.list items).flaw? (.kept (levels + 1)) = none := by
  show (Items.ofList items).flaw? (.kept levels) = none
  induction items with
  | nil => rfl
  | cons d items ih =>
    obtain ⟨hd, hitems⟩ := List.forall_mem_cons.mp h
    exact Option.or_eq_none_iff.mpr ⟨hd, ih hitems⟩

theorem flaw?_record {entries : List (String × Doc)} {levels : Nat}
    (h : ∀ e ∈ entries, e.2.flaw? (.kept levels) = none) :
    (Doc.record entries).flaw? (.kept (levels + 1)) = none := by
  show (Entries.ofList entries).flaw? (.kept levels) = none
  induction entries with
  | nil => rfl
  | cons e entries ih =>
    obtain ⟨he, hentries⟩ := List.forall_mem_cons.mp h
    exact Option.or_eq_none_iff.mpr ⟨rfl, Option.or_eq_none_iff.mpr ⟨he, ih hentries⟩⟩

end ClientRoster.Json
