import Mathlib.Data.List.Basic
import ClientRoster.Text.Lines

/-!
# `ClientRoster.Proofs.Text.Pieces` — lines as the pieces between line feeds

The lines of a text are found byte by byte. Here they are described all at once: cut the text at every line feed; the
pieces that are ended by one lose a carriage return, and what comes after the last one is a line if it is not empty.

## Contents
- `linesOf`: the lines that pieces make; `linesOf_append`, when more pieces follow.
- **`splitLines_eq_linesOf`**: a text has the lines that its pieces make.
- **`lines_eq_linesOf`**: a reader finds them, however its deliveries are cut and wherever some fail.
- `linesOf_ended_append`: the lines of a text that goes on after a line feed.
-/

namespace ClientRoster.Text

/-! ## Lines of pieces -/

/-- The lines that pieces make: all but the last were ended by a line feed, and the last one counts if there is
something in it. -/
def linesOf (pieces : List Bytes) : List Bytes :=
  pieces.dropLast.map withoutReturn ++ pieces.getLast?.toList.filter (!·.isEmpty)

theorem linesOf_append (front : List Bytes) {back : List Bytes} (h : back ≠ []) :
    linesOf (front ++ back) = front.map withoutReturn ++ linesOf back := by
  rw [linesOf, linesOf, List.dropLast_append_of_ne_nil h, List.getLast?_append_of_ne_nil front h, List.map_append,
    List.append_assoc]

/-! ## The lines of a text -/

/-- Behind bytes without a line feed, the first piece of what follows goes on. -/
theorem splitAfter_eq_linesOf {front : Bytes} (hfront : lineFeed ∉ front) (text : Bytes) :
    splitAfter front text = linesOf ((front ++ text).splitOn lineFeed) := by
  induction text generalizing front with
  | nil =>
    rw [List.append_nil, List.splitOn_eq_singleton hfront, splitAfter]
    cases front <;> rfl
  | cons b rest ih =>
    rw [splitAfter]
    by_cases hb : b = lineFeed
    · -- the piece ends here, and the rest is a text of its own
      subst hb
      rw [if_pos rfl, List.splitOn_append_cons_self, List.splitOn_eq_singleton hfront,
        linesOf_append [front] (List.splitOn_ne_nil lineFeed rest), ih List.not_mem_nil]
      rfl
    · have hmore : lineFeed ∉ front ++ [b] := by
        intro hmem
        rcases List.mem_append.mp hmem with hmem | hmem
        · exact hfront hmem
        · exact hb (List.mem_singleton.mp hmem).symm
      rw [if_neg hb, ih hmore, List.append_assoc, List.singleton_append]

/-- **A text has the lines that its pieces between line feeds make.** -/
theorem splitLines_eq_linesOf (text : Bytes) : splitLines text = linesOf (text.splitOn lineFeed) :=
  splitAfter_eq_linesOf List.not_mem_nil text

/-- **A reader finds the lines of the bytes that came,** however they were cut into deliveries and wherever a delivery
failed. -/
theorem LineReader.lines_eq_linesOf (deliveries : List Delivery) :
    lines deliveries = linesOf ((deliveries.flatMap Delivery.data).splitOn lineFeed) := by
  rw [lines_deliver, splitLines_eq_linesOf]

/-- A text that goes on after a line feed has the lines up to there and then the lines of the rest. -/
theorem linesOf_ended_append (front rest : Bytes) :
    linesOf ((front ++ lineFeed :: rest).splitOn lineFeed) =
      linesOf ((front ++ [lineFeed]).splitOn lineFeed) ++ linesOf (rest.splitOn lineFeed) := by
  have hended : linesOf ((front ++ [lineFeed]).splitOn lineFeed) = (front.splitOn lineFeed).map withoutReturn := by
    rw [List.splitOn_append_cons_self, linesOf_append _ (List.splitOn_ne_nil lineFeed [])]
    exact List.append_nil _
  rw [hended, List.splitOn_append_cons_self, linesOf_append _ (List.splitOn_ne_nil lineFeed rest)]

end ClientRoster.Text
