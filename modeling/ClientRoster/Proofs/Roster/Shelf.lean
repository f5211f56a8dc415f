import ClientRoster.Proofs.Roster.Filing

/-!
# `ClientRoster.Proofs.Roster.Shelf` — rosters side by side

Rosters are changed as a whole, edited in place and copied, and a copy goes its own way from then on. The same may be
done with filings. Whatever is done, and however long, the two show the same records, and the filings stay in order.

## Contents
- `Deed`, `Deed.onShelf`: what may be done with things of one kind that stand side by side on a shelf.
- `Roster.work`, `Roster.history`, `Filing.work`, `Filing.history`: rosters and filings after some deeds.
- **`map_client?_history`**: rosters and filings with one history show the same records.
- **`Filing.kept_of_mem_history`**: filings stay in order.
- `getElem?_history_changes`: changes of one of the rosters.
-/

namespace ClientRoster

/-! ## A shelf -/

/-- Something that is done on a shelf. -/
inductive Deed
  /-- A change is asked of what stands at a place. -/
  | change (place : Nat) (change : Change)
  /-- The record of an address is edited where it is. -/
  | edit (place : Nat) (a : Address) (edits : List Client.Edit)
  /-- What stands at a place is copied, and the copy is put at the end. -/
  | copy (place : Nat)

/-- The shelf after a deed, for any kind of thing that stands on it. -/
def Deed.onShelf {α : Type} (perform : α → Change → α) (edit : α → Address → List Client.Edit → α) (shelf : List α) :
    Deed → List α
  | .change place asked => shelf.modify place (perform · asked)
  | .edit place a edits => shelf.modify place (edit · a edits)
  | .copy place => shelf ++ shelf[place]?.toList

/-- Rosters on a shelf after some deeds. -/
def Roster.work (shelf : List Roster) (deeds : List Deed) : List Roster :=
  deeds.foldl (Deed.onShelf Roster.perform Roster.editAll) shelf

/-- All rosters that have come about by some deeds, of which the first begins with a single empty one. -/
def Roster.history (deeds : List Deed) : List Roster := work [.empty] deeds

/-- Filings on a shelf after some deeds. -/
def Filing.work (shelf : List Filing) (deeds : List Deed) : List Filing :=
  deeds.foldl (Deed.onShelf Filing.perform Filing.editAll) shelf

/-- The filings that have come about by the same deeds. -/
def Filing.history (deeds : List Deed) : List Filing := work [.empty] deeds

/-! ## Rosters and filings with one history -/

section Shelf

variable {α β : Type} {perform : α → Change → α} {edit : α → Address → List Client.Edit → α}
  {perform' : β → Change → β} {edit' : β → Address → List Client.Edit → β}

theorem map_modify_eq {φ : α → β} {f : α → α} {g : β → β} (h : ∀ x, φ (f x) = g (φ x)) (shelf : List α) (place : Nat) :
    (shelf.modify place f).map φ = (shelf.map φ).modify place g := by
  induction shelf generalizing place with
  | nil => rw [List.modify_nil, List.map_nil, List.modify_nil]
  | cons x rest ih =>
    cases place with
    | zero =>
      show φ (f x) :: rest.map φ = g (φ x) :: rest.map φ
      rw [h]
    | succ place =>
      rw [List.modify_succ_cons, List.map_cons, List.map_cons, List.modify_succ_cons, ih]

theorem forall_modify {P : α → Prop} {f : α → α} (hf : ∀ x, P x → P (f x)) {shelf : List α} (h : ∀ x ∈ shelf, P x)
    (place : Nat) : ∀ x ∈ shelf.modify place f, P x := by
  induction shelf generalizing place with
  | nil => rwa [List.modify_nil]
  | cons x rest ih =>
    rw [List.forall_mem_cons] at h
    cases place with
    | zero => exact List.forall_mem_cons.mpr ⟨hf x h.1, h.2⟩
    | succ place =>
      rw [List.modify_succ_cons]
      exact List.forall_mem_cons.mpr ⟨h.1, ih h.2 place⟩

/-- A view that follows each change follows each deed. -/
theorem Deed.map_onShelf {φ : α → β} (hperform : ∀ x change, φ (perform x change) = perform' (φ x) change)
    (hedit : ∀ x a edits, φ (edit x a edits) = edit' (φ x) a edits) (shelf : List α) (deed : Deed) :
    (deed.onShelf perform edit shelf).map φ = deed.onShelf perform' edit' (shelf.map φ) := by
  cases deed with
  | change place asked => exact map_modify_eq (hperform · asked) shelf place
  | edit place a edits => exact map_modify_eq (hedit · a edits) shelf place
  | copy place =>
    show (shelf ++ shelf[place]?.toList).map φ = shelf.map φ ++ (shelf.map φ)[place]?.toList
    rw [List.map_append, List.getElem?_map]
    cases shelf[place]? <;> rfl

end Shelf

theorem Roster.map_client?_work (shelf : List Roster) (deeds : List Deed) :
    (work shelf deeds).map client? = Filing.work (shelf.map client?) deeds := by
  induction deeds generalizing shelf with
  | nil => rfl
  | cons deed rest ih =>
    have hstep := Deed.map_onShelf client?_perform client?_editAll shelf deed
    show (work (deed.onShelf perform editAll shelf) rest).map client? = Filing.work (deed.onShelf _ _ _) rest
    rw [ih, hstep]

/-- **Rosters and filings with one history show the same records.** -/
theorem Roster.map_client?_history (deeds : List Deed) : (history deeds).map client? = Filing.history deeds :=
  map_client?_work [.empty] deeds

/-! ## Changes at one place -/

theorem Roster.getElem?_work_changes {shelf : List Roster} {place : Nat} {r : Roster} (hr : shelf[place]? = some r)
    (changes : List Change) : (work shelf (changes.map (.change place)))[place]? = some (r.performAll changes) := by
  induction changes generalizing shelf r with
  | nil => exact hr
  | cons asked rest ih =>
    have hnext : (shelf.modify place (perform · asked))[place]? = some (r.perform asked) := by
      rw [List.getElem?_modify_eq, hr]
      rfl
    exact ih hnext

/-- **Changes of one roster** leave it as they would leave it anywhere. -/
theorem Roster.getElem?_history_changes {deeds : List Deed} {place : Nat} {r : Roster}
    (hr : (history deeds)[place]? = some r) (changes : List Change) :
    (history (deeds ++ changes.map (.change place)))[place]? = some (r.performAll changes) := by
  unfold history work
  rw [List.foldl_append]
  exact getElem?_work_changes hr changes

/-! ## Filings stay in order -/

namespace Filing

/-- A deed keeps the filings on a shelf in order, if a record that is stored was built. -/
theorem kept_onShelf {shelf : List Filing} (h : ∀ f ∈ shelf, f.Kept) {deed : Deed}
    (hbuilt : ∀ place c, deed = .change place (.add c) → c.Built) :
    ∀ f ∈ deed.onShelf perform editAll shelf, f.Kept := by
  cases deed with
  | change place change =>
    have hlawful : change.Lawful := by
      cases change with
      | add c => exact hbuilt place c rfl
      | _ => trivial
    exact forall_modify (fun _ hf => kept_perform hf hlawful) h place
  | edit place a edits => exact forall_modify (fun _ hf => kept_editAll hf a edits) h place
  | copy place =>
    intro f hf
    rcases List.mem_append.mp hf with hf | hf
    · exact h f hf
    · exact h f (List.mem_of_getElem? (Option.mem_toList.mp hf))

theorem kept_work {shelf : List Filing} (h : ∀ f ∈ shelf, f.Kept) {deeds : List Deed}
    (hbuilt : ∀ place c, .change place (.add c) ∈ deeds → c.Built) : ∀ f ∈ work shelf deeds, f.Kept := by
  induction deeds generalizing shelf with
  | nil => exact h
  | cons deed rest ih =>
    apply ih
    · apply kept_onShelf h
      intro place c hdeed
      exact hbuilt place c (hdeed ▸ List.mem_cons_self)
    · intro place c hmem
      exact hbuilt place c (List.mem_cons_of_mem deed hmem)

/-- **All filings stay in order,** whatever is done with them. -/
theorem kept_of_mem_history {deeds : List Deed} (hbuilt : ∀ place c, .change place (.add c) ∈ deeds → c.Built) :
    ∀ f ∈ history deeds, f.Kept := by
  apply kept_work ?_ hbuilt
  intro f hf
  obtain rfl := List.mem_singleton.mp hf
  exact kept_empty

end Filing

end ClientRoster
