import Mathlib.Logic.Function.Iterate
import ClientRoster.Hint.Feed
import ClientRoster.Proofs.Text.Pieces

/-!
# `ClientRoster.Proofs.Hint.Stream` — the hints of a feed depend on its bytes alone

A feed of lines carries an unfinished line from one delivery to the next, over failures too. So what it finds is a
matter of the bytes that came and not of how they came, and within the bytes it is a matter of one line at a time.

## Contents
- `hintsOfText`: the hints of some bytes, stage by stage; `hintsOf_eq_hintsOfText`.
- `hintsOfText_append`, `hintsOfText_skip`: the hints before and behind a line feed, and a line without a hint.
- `watched`, `watch_watched`: a feed that was watched before.
- **`watch_new`**: what the first watch of a feed gives, and what every later one does.
-/

namespace ClientRoster

open Text

namespace LineFeed

/-! ## The hints of some bytes -/

/-- The hints of some bytes: the bytes are cut at line feeds, lines that are not UTF-8 are left out, each of the others
is read, and those that hold a hint give it. -/
def hintsOfText (bytes : Bytes) : List Hint :=
  let lines := linesOf (bytes.splitOn lineFeed)
  let texts := lines.filterMap textOfBytes?
  texts.filterMap fun text => match Hint.ofLine text with
    | .ok hint => hint
    | .error _ => none

/-- Line by line or stage by stage, the hints are the same. -/
theorem hintsOfText_eq_filterMap (bytes : Bytes) :
    hintsOfText bytes = (linesOf (bytes.splitOn lineFeed)).filterMap Hint.ofBytes? := by
  rw [hintsOfText, List.filterMap_filterMap]
  apply List.filterMap_congr
  intro line _
  unfold Hint.ofBytes?
  cases textOfBytes? line with
  | none => rfl
  | some text =>
    rw [Option.bind_some, Option.map_some]
    cases Hint.ofLine text <;> rfl

/-- **However the bytes came, their hints are the same.** -/
theorem hintsOf_eq_hintsOfText (deliveries : List Delivery) :
    hintsOf deliveries = hintsOfText (deliveries.flatMap Delivery.data) := by
  rw [hintsOf, LineReader.lines_eq_linesOf, hintsOfText_eq_filterMap]

/-- What comes before a line feed and what comes behind it have their hints apart. -/
theorem hintsOfText_append (front rest : Bytes) :
    hintsOfText (front ++ lineFeed :: rest) = hintsOfText (front ++ [lineFeed]) ++ hintsOfText rest := by
  simp only [hintsOfText_eq_filterMap]
  rw [linesOf_ended_append, List.filterMap_append]

/-- A single line gives its hint, if it holds one. -/
theorem hintsOfText_line {line : Bytes} (h : lineFeed ∉ line) :
    hintsOfText (line ++ [lineFeed]) = (Hint.ofBytes? (withoutReturn line)).toList := by
  have hlines : linesOf ((line ++ [lineFeed]).splitOn lineFeed) = [withoutReturn line] := by
    rw [List.splitOn_append_cons_self, List.splitOn_eq_singleton h, linesOf_append _ (List.splitOn_ne_nil lineFeed [])]
    rfl
  rw [hintsOfText_eq_filterMap, hlines]
  cases hread : Hint.ofBytes? (withoutReturn line) <;> simp [hread]

/-- A line that holds no hint may as well not be there. -/
theorem hintsOfText_skip {line : Bytes} (hline : lineFeed ∉ line)
    (hnone : Hint.ofBytes? (withoutReturn line) = none) (rest : Bytes) :
    hintsOfText (line ++ lineFeed :: rest) = hintsOfText rest := by
  rw [hintsOfText_append, hintsOfText_line hline, hnone]
  rfl

/-! ## Watching a feed -/

/-- What is left of a feed that was watched some times. -/
def watched (n : Nat) (f : LineFeed) : LineFeed := (fun f : LineFeed => f.watch.2)^[n] f

/-- The first watch uses the reader up. -/
theorem reader_watch (f : LineFeed) : f.watch.2.reader = none := by
  unfold watch
  cases h : f.reader with
  | none => exact h
  | some deliveries => rfl

theorem watch_of_reader_none {f : LineFeed} (h : f.reader = none) : f.watch.1 = [] := by
  unfold watch
  rw [h]

theorem reader_watched (n : Nat) (f : LineFeed) : (watched (n + 1) f).reader = none := by
  rw [watched, Function.iterate_succ_apply']
  exact reader_watch _

/-- A feed that was watched before has no more hints. -/
theorem watch_watched (n : Nat) (f : LineFeed) : (watched (n + 1) f).watch.1 = [] :=
  watch_of_reader_none (reader_watched n f)

/-- **The first watch of a feed gives the hints of the bytes that came, and every later one gives none.** How the bytes
were cut into deliveries and which deliveries failed makes no difference; bytes that end in a line feed have their hints
apart from the bytes behind them; and a line that is blank, malformed or not UTF-8 may as well not be there. -/
theorem watch_new :
    (∀ name deliveries, (new name deliveries).watch.1 = hintsOfText (deliveries.flatMap Delivery.data)) ∧
    (∀ name deliveries others, deliveries.flatMap Delivery.data = others.flatMap Delivery.data →
      (new name deliveries).watch.1 = (new name others).watch.1) ∧
    (∀ front rest, hintsOfText (front ++ [lineFeed] ++ rest) = hintsOfText (front ++ [lineFeed]) ++ hintsOfText rest) ∧
    (∀ line rest, lineFeed ∉ line → Hint.ofBytes? (withoutReturn line) = none →
      hintsOfText (line ++ [lineFeed] ++ rest) = hintsOfText rest) ∧
    (∀ name deliveries n, (watched (n + 1) (new name deliveries)).watch.1 = []) := by
  have hfirst : ∀ name deliveries,
      (new name deliveries).watch.1 = hintsOfText (deliveries.flatMap Delivery.data) := by
    intro name deliveries
    exact hintsOf_eq_hintsOfText deliveries
  refine ⟨hfirst, ?_, ?_, ?_, ?_⟩
  · intro name deliveries others hsame
    rw [hfirst, hfirst, hsame]
  · intro front rest
    rw [List.append_assoc, List.singleton_append]
    exact hintsOfText_append front rest
  · intro line rest hline hnone
    rw [List.append_assoc, List.singleton_append]
    exact hintsOfText_skip hline hnone rest
  · intro name deliveries n
    exact watch_watched n _

/-- A line that holds the end of a client, and a line of one byte that is not UTF-8. -/
def sampleText : Bytes :=
  "\x7b\"kind\":\"remove\",\"addr\":\"::1\"\x7d".toUTF8.toList ++ [carriageReturn, lineFeed] ++ [0xff, lineFeed]

/-- A failed delivery between the two bytes that end a line changes nothing, and the second line has no part in what the
feed gives. -/
theorem watch_new_cut_ending :
    let cut : List Delivery := [.bytes (sampleText.take 31), .failed, .bytes (sampleText.drop 31)]
    cut.flatMap Delivery.data = [Delivery.bytes sampleText].flatMap Delivery.data ∧
      (new "feed" cut).watch.1 = (new "feed" [.bytes sampleText]).watch.1 ∧
      (new "feed" cut).watch.1 = [.remove (.v6 ⟨[0, 0, 0, 0, 0, 0, 0, 1], rfl⟩)] ∧
      (watched 1 (new "feed" cut)).watch.1 = [] ∧
      lineFeed ∉ [0xff] ∧ Hint.ofBytes? (withoutReturn [0xff]) = none ∧
      hintsOfText ([0xff] ++ [lineFeed] ++ sampleText) = hintsOfText sampleText := by
  intro cut
  obtain ⟨hfirst, hsame, -, hskip, hlater⟩ := watch_new
  have hbytes : cut.flatMap Delivery.data = [Delivery.bytes sampleText].flatMap Delivery.data := by
    simp [cut, Delivery.data]
  have hline : lineFeed ∉ ([0xff] : Bytes) := by decide
  have hnone : Hint.ofBytes? (withoutReturn [0xff]) = none := by decide
  have hhints : (new "feed" cut).watch.1 = [.remove (.v6 ⟨[0, 0, 0, 0, 0, 0, 0, 1], rfl⟩)] := by
    rw [hfirst, hbytes]
    decide +kernel
  exact ⟨hbytes, hsame "feed" cut _ hbytes, hhints, hlater "feed" cut 0, hline, hnone,
    hskip [0xff] sampleText hline hnone⟩

end LineFeed

end ClientRoster
