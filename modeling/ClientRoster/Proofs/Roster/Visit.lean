import Mathlib.Data.Set.Card
import ClientRoster.Proofs.Roster.View

/-!
# `ClientRoster.Proofs.Roster.Visit` — what a visitor is shown

A roster shows its records to a visitor one by one, until the visitor has seen enough. The visitor keeps a state of its
own, and may take from it and from the record that it is shown whether this is enough. Whatever it does, it is shown no
record twice, and a visitor that has seen enough at a certain visit is shown that many records, or all there are.

## Contents
- `recording`, `shown`, `snapshot`: the records that a visitor is shown; `visit_eq_stateAfter`: they alone make its
  state what it is in the end.
- `BreaksAt`, and **`shown_eq_take`**: a visitor that has seen enough at a certain visit; `breaksAt_counting`: the one
  that counts.
- `snapshot_eq`, `encard_occupied`: the copies of all records, and how many addresses have one.
-/

namespace ClientRoster.Roster

variable {σ : Type} (visitor : σ → Client → σ × Bool)

/-- The state of a visitor that was shown some records, if it goes on after each of them. -/
def stateAfter (start : σ) (shown : List Client) : σ := shown.foldl (fun state c => (visitor state c).1) start

/-- The visitor, with a list of what it was shown. -/
def recording : σ × List Client → Client → (σ × List Client) × Bool
  | (state, seen), c => (((visitor state c).1, seen ++ [c]), (visitor state c).2)

/-- The records that a visitor is shown, in order. -/
def shown (start : σ) (r : Roster) : List Client := (r.visit (recording visitor) (start, [])).2

/-- A copy of every record. -/
def snapshot (r : Roster) : List Client := r.visit (fun seen c => (seen ++ [c], false)) []

/-- Has the visitor seen enough at its visit number `k`, and at no visit before it? -/
def BreaksAt (start : σ) (clients : List Client) (k : Nat) : Prop :=
  ∀ n c, clients[n]? = some c → n < k →
    ((visitor (stateAfter visitor start (clients.take n)) c).2 = true ↔ n + 1 = k)

theorem go_cons (state : σ) (c : Client) (rest : List Client) :
    visit.go visitor state (c :: rest) =
      if (visitor state c).2 then (visitor state c).1 else visit.go visitor (visitor state c).1 rest := rfl

theorem go_recording_cons (state : σ) (seen : List Client) (c : Client) (rest : List Client) :
    visit.go (recording visitor) (state, seen) (c :: rest) =
      if (visitor state c).2 then ((visitor state c).1, seen ++ [c])
      else visit.go (recording visitor) ((visitor state c).1, seen ++ [c]) rest := rfl

theorem go_recording_fst (state : σ) (seen clients : List Client) :
    (visit.go (recording visitor) (state, seen) clients).1 = visit.go visitor state clients := by
  induction clients generalizing state seen with
  | nil => rfl
  | cons c rest ih =>
    rw [go_recording_cons, go_cons]
    split
    · rfl
    · exact ih (visitor state c).1 (seen ++ [c])

theorem stateAfter_concat (start : σ) (seen : List Client) (c : Client) :
    stateAfter visitor start (seen ++ [c]) = (visitor (stateAfter visitor start seen) c).1 := by
  unfold stateAfter
  rw [List.foldl_concat]

/-- What the visitor was shown made its state what it is. -/
theorem go_recording_eq (start : σ) (seen clients : List Client) :
    let last := visit.go (recording visitor) (stateAfter visitor start seen, seen) clients
    last.1 = stateAfter visitor start last.2 := by
  induction clients generalizing seen with
  | nil => rfl
  | cons c rest ih =>
    simp only [go_recording_cons, ← stateAfter_concat]
    split
    · rfl
    · exact ih (seen ++ [c])

/-- **A visitor ends in the state that the records make which it was shown,** and in no other. -/
theorem visit_eq_stateAfter (start : σ) (r : Roster) :
    r.visit visitor start = stateAfter visitor start (shown visitor start r) :=
  (go_recording_fst visitor start [] r.clients).symm.trans (go_recording_eq visitor start [] r.clients)

/-! ## Enough -/

/-- What the first visit decides, and what is left to the others. -/
theorem breaksAt_cons {start : σ} {c : Client} {rest : List Client} {k : Nat}
    (h : BreaksAt visitor start (c :: rest) (k + 1)) :
    ((visitor start c).2 = true ↔ k = 0) ∧ BreaksAt visitor (visitor start c).1 rest k := by
  constructor
  · have hfirst := h 0 c rfl (Nat.succ_pos k)
    rw [List.take_zero] at hfirst
    refine hfirst.trans ?_
    omega
  · intro n d hd hn
    have hnext := h (n + 1) d hd (Nat.succ_lt_succ hn)
    rw [List.take_succ_cons] at hnext
    exact hnext.trans Nat.succ_inj

theorem go_recording_snd {state : σ} {clients : List Client} {k : Nat} (h : BreaksAt visitor state clients (k + 1))
    (seen : List Client) :
    (visit.go (recording visitor) (state, seen) clients).2 = seen ++ clients.take (k + 1) := by
  induction clients generalizing state seen k with
  | nil => exact (List.append_nil seen).symm
  | cons c rest ih =>
    obtain ⟨hfirst, hrest⟩ := breaksAt_cons visitor h
    rw [go_recording_cons, List.take_succ_cons]
    cases k with
    | zero => rw [if_pos (hfirst.mpr rfl), List.take_zero]
    | succ k =>
      have hmore : ¬ (visitor state c).2 = true := fun henough => absurd (hfirst.mp henough) (Nat.succ_ne_zero k)
      rw [if_neg hmore, ih hrest, List.append_assoc]
      rfl

/-- **A visitor that has seen enough at a certain visit** was shown the records up to there, or all there are. -/
theorem shown_eq_take {start : σ} {r : Roster} {k : Nat} (hk : 0 < k) (h : BreaksAt visitor start r.clients k) :
    shown visitor start r = r.clients.take k := by
  obtain ⟨k, rfl⟩ := Nat.exists_eq_succ_of_ne_zero (Nat.ne_of_gt hk)
  exact go_recording_snd visitor h []

/-- The visitor that counts its visits, and has seen enough when there were `k`. -/
def counting (k seen : Nat) (_ : Client) : Nat × Bool := (seen + 1, decide (seen + 1 = k))

theorem stateAfter_counting (k start : Nat) (clients : List Client) :
    stateAfter (counting k) start clients = start + clients.length := by
  induction clients generalizing start with
  | nil => rfl
  | cons c rest ih =>
    show stateAfter (counting k) (start + 1) rest = start + (rest.length + 1)
    rw [ih]
    omega

theorem breaksAt_counting (k : Nat) (clients : List Client) : BreaksAt (counting k) 0 clients k := by
  intro n c hc _
  obtain ⟨hn, -⟩ := List.getElem?_eq_some_iff.mp hc
  rw [stateAfter_counting, List.length_take_of_le (Nat.le_of_lt hn), Nat.zero_add]
  exact decide_eq_true_iff

/-! ## All records -/

theorem go_snapshot (seen clients : List Client) :
    visit.go (fun (seen : List Client) c => (seen ++ [c], false)) seen clients = seen ++ clients := by
  induction clients generalizing seen with
  | nil => exact (List.append_nil seen).symm
  | cons c rest ih =>
    have hrest := ih (seen ++ [c])
    rw [List.append_assoc] at hrest
    exact hrest

theorem snapshot_eq (r : Roster) : r.snapshot = r.clients := go_snapshot [] r.clients

/-- **There are as many records as there are addresses that have one.** -/
theorem encard_occupied (r : Roster) : {a | (r.client? a).isSome}.encard = r.size := by
  have hset : {a | (r.client? a).isSome} = ((r.clients.map Client.addr).toFinset : Set Address) := by
    ext a
    rw [List.coe_toFinset]
    show (r.client? a).isSome ↔ a ∈ r.clients.map Client.addr
    rw [List.mem_map]
    constructor
    · intro hsome
      obtain ⟨c, hc⟩ := Option.isSome_iff_exists.mp hsome
      exact ⟨c, List.mem_of_find?_eq_some hc, addr_of_client? hc⟩
    · rintro ⟨c, hmem, rfl⟩
      rw [mem_clients_iff.mp hmem]
      rfl
  rw [hset, Set.encard_coe_eq_coe_finsetCard, List.toFinset_card_of_nodup r.nodup_addr, List.length_map]
  rfl

end ClientRoster.Roster
