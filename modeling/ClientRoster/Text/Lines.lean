/-!
# `ClientRoster.Text.Lines` — lines of bytes

A line ends at a line feed, and one carriage return before it belongs to the ending. What comes after the last
line feed is a line too, unless it is empty. Bytes arrive in pieces, cut anywhere, with failed attempts between
them; a reader carries the unfinished line from one delivery to the next.

## Contents
- `splitLines`: the lines of a complete text.
- `Delivery`, `LineReader`: the same lines, as they become known (`lines_deliver`).
-/

namespace ClientRoster.Text

/-- A sequence of bytes. -/
abbrev Bytes := List UInt8

/-- The byte that ends a line. -/
def lineFeed : UInt8 := 10

/-- The byte that may stand before the end of a line. -/
def carriageReturn : UInt8 := 13

/-! ## Complete texts -/

/-- A line without its carriage return. -/
def withoutReturn (line : Bytes) : Bytes :=
  if line.getLast? = some carriageReturn then line.dropLast else line

/-- The lines of a text of which `front` is already known to hold no line feed. -/
def splitAfter (front : Bytes) : Bytes → List Bytes
  | [] => if front.isEmpty then [] else [front]
  | b :: rest =>
    if b = lineFeed then withoutReturn front :: splitAfter [] rest
    else splitAfter (front ++ [b]) rest

/-- The lines of a text. -/
def splitLines (text : Bytes) : List Bytes := splitAfter [] text

/-! ## Deliveries -/

/-- One attempt to read: some bytes, or a failure. -/
inductive Delivery
  | bytes (data : Bytes)
  | failed
  deriving DecidableEq, Repr

/-- The bytes that came with a delivery. -/
def Delivery.data : Delivery → Bytes
  | bytes data => data
  | failed => []

/-- A reader in the middle of a line, of which it holds the bytes so far, the last one first. -/
structure LineReader where
  pending : Bytes := []
  deriving DecidableEq, Repr

namespace LineReader

/-- The line that ends here. -/
def line (r : LineReader) : Bytes :=
  match r.pending with
  | [] => []
  | b :: before => if b = carriageReturn then before.reverse else (b :: before).reverse

/-- Takes some bytes; gives the lines that they end. -/
def take (r : LineReader) : Bytes → List Bytes × LineReader
  | [] => ([], r)
  | b :: rest =>
    if b = lineFeed then
      let (lines, r') := take {} rest
      (r.line :: lines, r')
    else take ⟨b :: r.pending⟩ rest

/-- Takes a delivery; a failed one changes nothing. -/
def deliver (r : LineReader) (d : Delivery) : List Bytes × LineReader := r.take d.data

/-- Takes deliveries one after the other. -/
def deliverAll (r : LineReader) : List Delivery → List Bytes × LineReader
  | [] => ([], r)
  | d :: rest =>
    let (lines, r) := r.deliver d
    let (more, r) := deliverAll r rest
    (lines ++ more, r)

/-- The line that is left when nothing comes any more. -/
def last (r : LineReader) : List Bytes := if r.pending.isEmpty then [] else [r.pending.reverse]

/-- All lines of some deliveries. -/
def lines (deliveries : List Delivery) : List Bytes :=
  let (lines, r) := deliverAll {} deliveries
  lines ++ r.last

/-! ## The reader finds the lines of the text -/

theorem withoutReturn_reverse (pending : Bytes) :
    withoutReturn pending.reverse = line ⟨pending⟩ := by
  cases pending with
  | nil => rfl
  | cons b before =>
    unfold withoutReturn line
    by_cases hb : b = carriageReturn <;> simp [hb]

theorem take_splitAfter (pending data : Bytes) :
    splitAfter pending.reverse data = (take ⟨pending⟩ data).1 ++ (take ⟨pending⟩ data).2.last := by
  induction data generalizing pending with
  | nil => simp [splitAfter, take, last]
  | cons b rest ih =>
    unfold splitAfter take
    by_cases hb : b = lineFeed
    · have h := ih []
      simp only [List.reverse_nil] at h
      simp only [hb, if_true]
      rw [h, withoutReturn_reverse]
      rfl
    · have h := ih (b :: pending)
      rw [List.reverse_cons] at h
      simp only [hb, if_false]
      exact h

theorem take_cons_lineFeed (r : LineReader) (rest : Bytes) :
    r.take (lineFeed :: rest) = (r.line :: (take {} rest).1, (take {} rest).2) := by
  rw [take, if_pos rfl]

theorem take_cons_of_ne (r : LineReader) {b : UInt8} (rest : Bytes) (hb : b ≠ lineFeed) :
    r.take (b :: rest) = take ⟨b :: r.pending⟩ rest := by
  rw [take, if_neg hb]

theorem take_append (r : LineReader) (front back : Bytes) :
    r.take (front ++ back) =
      ((r.take front).1 ++ ((r.take front).2.take back).1, ((r.take front).2.take back).2) := by
  induction front generalizing r with
  | nil => simp [take]
  | cons b rest ih =>
    rw [List.cons_append]
    by_cases hb : b = lineFeed
    · subst hb
      rw [take_cons_lineFeed, take_cons_lineFeed, ih]
      rfl
    · rw [take_cons_of_ne r _ hb, take_cons_of_ne r _ hb, ih]

theorem deliverAll_eq_take (r : LineReader) (deliveries : List Delivery) :
    r.deliverAll deliveries = r.take (deliveries.flatMap Delivery.data) := by
  induction deliveries generalizing r with
  | nil => rfl
  | cons d rest ih =>
    rw [List.flatMap_cons, take_append, deliverAll]
    simp only [deliver]
    rw [ih]

/-- However the bytes are cut into deliveries, the reader finds the lines of the whole text. -/
theorem lines_deliver (deliveries : List Delivery) :
    lines deliveries = splitLines (deliveries.flatMap Delivery.data) := by
  unfold lines splitLines
  rw [deliverAll_eq_take]
  exact (take_splitAfter [] _).symm

end LineReader

end ClientRoster.Text
