import ClientRoster.Roster

/-!
# `ClientRoster.Roster.Desk` — rosters reached through handles

Several readers and writers may hold the same roster. A handle is a number; two handles can stand for one roster,
and a change through either is seen through both.
-/

namespace ClientRoster

/-- Rosters and the handles on them: handle `h` stands for the roster at position `handles[h]`. -/
structure Desk where
  rosters : List Roster
  handles : List Nat

namespace Desk

/-- One roster and one handle on it. -/
def single (r : Roster) : Desk := ⟨[r], [0]⟩

/-- The roster that a handle stands for. -/
def roster? (d : Desk) (h : Nat) : Option Roster := do
  let place ← d.handles[h]?
  d.rosters[place]?

/-- Changes the roster that a handle stands for; a handle nobody gave out changes nothing. -/
def put (d : Desk) (h : Nat) (r : Roster) : Desk :=
  match d.handles[h]? with
  | some place => { d with rosters := d.rosters.set place r }
  | none => d

/-- A second handle on the roster of `h`, as its number. -/
def share? (d : Desk) (h : Nat) : Option (Desk × Nat) := do
  let place ← d.handles[h]?
  some ({ d with handles := d.handles ++ [place] }, d.handles.length)

/-- A handle on a roster without clients, as its number. -/
def fresh (d : Desk) : Desk × Nat :=
  (⟨d.rosters ++ [.empty], d.handles ++ [d.rosters.length]⟩, d.handles.length)

/-- A change through one handle is seen through every handle that stands at the same place, and no other. -/
theorem roster?_put (d : Desk) (h k : Nat) (r : Roster) {i j : Nat} (hi : d.handles[h]? = some i)
    (hj : d.handles[k]? = some j) (hlt : i < d.rosters.length) :
    (d.put h r).roster? k = if i = j then some r else d.roster? k := by
  simp only [put, hi, roster?, hj, Option.bind_eq_bind, Option.bind_some, List.getElem?_set]
  by_cases hij : i = j
  · subst hij
    simp [hlt]
  · simp [hij]

end Desk

end ClientRoster
