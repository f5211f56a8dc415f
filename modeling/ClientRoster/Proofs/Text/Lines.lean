import ClientRoster.Text.Lines

/-!
# `ClientRoster.Proofs.Text.Lines` — lines that are sent are the lines that arrive

Bytes that are no control characters contain neither a line feed nor a carriage return, so each ending that is added to
them is found where it was added. A text without control characters has only such bytes: characters beyond ASCII are
encoded in bytes of 128 and more.

## Contents
- `bytesOf`, `fromUTF8?_bytesOf`, `plainBytes_bytesOf`: texts as bytes.
- `splitLines_append`, `LineEnd`, **`splitLines_flatMap`: the lines of a text that was put together from lines**.
-/

namespace ClientRoster.Text

/-! ## Texts as bytes -/

/-- The bytes of a text. -/
def bytesOf (s : String) : Bytes := s.toUTF8.data.toList

theorem toByteArray_bytesOf (s : String) : (bytesOf s).toByteArray = s.toUTF8 := by
  apply ByteArray.ext
  rw [List.data_toByteArray, bytesOf, Array.toArray_toList]

/-- A text is found again in its bytes. -/
theorem fromUTF8?_bytesOf (s : String) : String.fromUTF8? (bytesOf s).toByteArray = some s := by
  have hvalid : s.toUTF8.IsValidUTF8 := s.isValidUTF8
  rw [toByteArray_bytesOf, String.fromUTF8?, dif_pos hvalid]
  rfl

/-- None of the bytes is a control character. -/
def PlainBytes (bytes : Bytes) : Prop := ∀ b ∈ bytes, 0x20 ≤ b.toNat

/-- A character that is no control character has no byte that is one. -/
theorem plainBytes_encodeChar {c : Char} (hc : 0x20 ≤ c.toNat) : PlainBytes (String.utf8EncodeChar c) := by
  have hv : 0x20 ≤ c.val.toNat := hc
  intro b hb
  unfold String.utf8EncodeChar at hb
  simp only at hb
  split at hb
  · next hle =>
    obtain rfl := List.mem_singleton.mp hb
    rw [UInt8.toNat_ofNat']
    omega
  split at hb
  · simp only [List.mem_cons, List.not_mem_nil, or_false] at hb
    rcases hb with rfl | rfl <;> rw [UInt8.toNat_ofNat'] <;> omega
  split at hb
  · simp only [List.mem_cons, List.not_mem_nil, or_false] at hb
    rcases hb with rfl | rfl | rfl <;> rw [UInt8.toNat_ofNat'] <;> omega
  · simp only [List.mem_cons, List.not_mem_nil, or_false] at hb
    rcases hb with rfl | rfl | rfl | rfl <;> rw [UInt8.toNat_ofNat'] <;> omega

theorem bytesOf_ofList (cs : List Char) : bytesOf (String.ofList cs) = cs.flatMap String.utf8EncodeChar := by
  rw [bytesOf, String.toUTF8_eq_toByteArray, String.toByteArray_ofList, List.utf8Encode,
    List.data_toByteArray, List.toList_toArray]

/-- A text without control characters has no byte that is one. -/
theorem plainBytes_bytesOf {cs : List Char} (h : ∀ c ∈ cs, 0x20 ≤ c.toNat) :
    PlainBytes (bytesOf (String.ofList cs)) := by
  rw [bytesOf_ofList]
  intro b hb
  obtain ⟨c, hc, hmem⟩ := List.mem_flatMap.mp hb
  exact plainBytes_encodeChar (h c hc) b hmem

/-! ## Lines -/

theorem splitAfter_append {line : Bytes} (h : lineFeed ∉ line) (front rest : Bytes) :
    splitAfter front (line ++ lineFeed :: rest) = withoutReturn (front ++ line) :: splitLines rest := by
  induction line generalizing front with
  | nil => rw [List.nil_append, splitAfter, if_pos rfl, List.append_nil, splitLines]
  | cons b line ih =>
    obtain ⟨hb, hline⟩ := List.ne_and_not_mem_of_not_mem_cons h
    rw [List.cons_append, splitAfter, if_neg (Ne.symm hb), ih hline, List.append_assoc, List.singleton_append]

/-- A line ends at its line feed, and the others follow. -/
theorem splitLines_append {line : Bytes} (h : lineFeed ∉ line) (rest : Bytes) :
    splitLines (line ++ lineFeed :: rest) = withoutReturn line :: splitLines rest :=
  splitAfter_append h [] rest

/-- How a line may be ended. -/
inductive LineEnd
  | feed
  | returnFeed
  deriving DecidableEq, Repr

/-- The bytes that end a line. -/
def LineEnd.bytes : LineEnd → Bytes
  | feed => [lineFeed]
  | returnFeed => [carriageReturn, lineFeed]

theorem PlainBytes.not_mem {line : Bytes} (h : PlainBytes line) {b : UInt8} (hb : b.toNat < 0x20) : b ∉ line := by
  intro hmem
  exact absurd (h b hmem) (Nat.not_le.mpr hb)

/-- However a line is ended, it arrives as it was. -/
theorem splitLines_ended {line : Bytes} (h : PlainBytes line) (ending : LineEnd) (rest : Bytes) :
    splitLines (line ++ (ending.bytes ++ rest)) = line :: splitLines rest := by
  have hfeed : lineFeed ∉ line := h.not_mem (by decide)
  have hreturn : carriageReturn ∉ line := h.not_mem (by decide)
  cases ending with
  | feed =>
    have hlast : line.getLast? ≠ some carriageReturn := by
      intro hlast
      exact hreturn (List.mem_of_getLast? hlast)
    show splitLines (line ++ lineFeed :: rest) = line :: splitLines rest
    rw [splitLines_append hfeed, withoutReturn, if_neg hlast]
  | returnFeed =>
    have hfeed' : lineFeed ∉ line ++ [carriageReturn] := by
      intro hmem
      rcases List.mem_append.mp hmem with hmem | hmem
      · exact hfeed hmem
      · exact absurd (List.mem_singleton.mp hmem) (by decide)
    have hshape : line ++ (LineEnd.returnFeed.bytes ++ rest) = line ++ [carriageReturn] ++ lineFeed :: rest := by
      rw [List.append_assoc]
      rfl
    rw [hshape, splitLines_append hfeed', withoutReturn, if_pos List.getLast?_concat, List.dropLast_concat]

/-- **The lines of a text that was put together from lines** are these lines, whichever way each of them was ended. -/
theorem splitLines_flatMap {sent : List (Bytes × LineEnd)} (h : ∀ s ∈ sent, PlainBytes s.1) :
    splitLines (sent.flatMap fun s => s.1 ++ s.2.bytes) = sent.map Prod.fst := by
  induction sent with
  | nil => rfl
  | cons s sent ih =>
    obtain ⟨hs, hsent⟩ := List.forall_mem_cons.mp h
    rw [List.flatMap_cons, List.append_assoc, splitLines_ended hs, ih hsent, List.map_cons]

end ClientRoster.Text
