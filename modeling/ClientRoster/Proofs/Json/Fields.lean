import ClientRoster.Json.Layout
import ClientRoster.Proofs.Json.Decode

/-!
# `ClientRoster.Proofs.Json.Fields` — which documents are read as a record

A record is read from the left, field by field as they come. What it is in the end does not depend on their order: it
is the record that arises when the fields are filled in the order of the layout, each with the documents which are given
for its name. An object gives them by name and an array by position, and from there on the two forms are one.

The order is free because two fields of a record do not meet (`Apart`). The induction on the entries needs it in one
place: the field that comes first has to be moved to its place in the layout (`filled_more`).

## Contents
- `Entries.valuesOf`, `positional`: what a document gives for a name.
- `FieldReader.Fills`, `Filled`: fields filled from what is given for them.
- `readEntries_eq_ok_iff`, `readItems_eq_ok_iff`, **`Layout.read_eq_ok_iff`**.
-/

namespace ClientRoster.Json

/-! ## What is given for a name -/

/-- The values that stand under a name, from the left. -/
def Entries.valuesOf : Entries → String → List Doc
  | closed, _ | cut _, _ => []
  | cons key value rest, name =>
    if key = .plain name.toList then value :: rest.valuesOf name else rest.valuesOf name

/-- The document at the place of a name. -/
def positional : List String → List Doc → String → List Doc
  | n :: names, d :: docs, name => if name = n then [d] else positional names docs name
  | _, _, _ => []

theorem positional_nil (names : List String) (name : String) : positional names [] name = [] := by
  cases names <;> rfl

theorem mem_of_mem_positional {names : List String} {docs : List Doc} {name : String} {d : Doc}
    (h : d ∈ positional names docs name) : d ∈ docs := by
  induction names generalizing docs with
  | nil => cases h
  | cons n names ih =>
    cases docs with
    | nil => cases h
    | cons e docs =>
      rw [positional] at h
      split at h
      · exact List.mem_singleton.mp h ▸ List.mem_cons_self
      · exact List.mem_cons_of_mem e (ih h)

/-- The values in a sound object are sound. -/
theorem sound_of_mem_valuesOf {entries : Entries} (hc : entries.Complete) (hl : Spelled entries.literals)
    {name : String} {d : Doc} (hd : d ∈ entries.valuesOf name) : d.Complete ∧ Spelled d.literals := by
  match entries with
  | .closed => cases hd
  | .cons key value rest =>
    obtain ⟨hvalue, hrest⟩ := spelled_append.mp (spelled_cons.mp hl).2
    rw [Entries.valuesOf] at hd
    split at hd
    · rcases List.mem_cons.mp hd with rfl | hmem
      · exact ⟨hc.1, hvalue⟩
      · exact sound_of_mem_valuesOf hc.2 hrest hmem
    · exact sound_of_mem_valuesOf hc.2 hrest hd

/-- The items go on to their bracket. -/
def Items.Closed : Items → Prop
  | closed => True
  | cut _ => False
  | cons _ rest => rest.Closed

variable {σ : Type}

/-- The entries go on to their brace, each key is a text, and what stands under a name that is no field's is complete. -/
def Entries.Readable (fields : List (FieldReader σ)) : Entries → Prop
  | closed => True
  | cut _ => False
  | cons key value rest =>
    key ≠ .unpaired ∧ ((∀ f ∈ fields, key ≠ .plain f.name.toList) → value.Complete) ∧ rest.Readable fields

theorem Items.Complete.closed {items : Items} (h : items.Complete) : items.Closed := by
  cases items with
  | closed => trivial
  | cut fault => exact h
  | cons item rest =>
    have hrest : rest.Closed := Items.Complete.closed h.2
    exact hrest

theorem Entries.readable {entries : Entries} (h : entries.Complete) (hl : Spelled entries.literals)
    (fields : List (FieldReader σ)) : entries.Readable fields := by
  match entries with
  | .closed => trivial
  | .cons key value rest =>
    obtain ⟨hkey, hl⟩ := spelled_cons.mp hl
    exact ⟨hkey, fun _ => h.1, Entries.readable h.2 (spelled_append.mp hl).2 fields⟩

/-! ## Fields and what is given for them -/

/-- The documents given for a field take the record to another: none leaves it as it is, one is put into it, and more
are not allowed. -/
def FieldReader.Fills (f : FieldReader σ) : List Doc → σ → σ → Prop
  | [], r, r' => r' = r
  | [d], r, r' => f.put d r = .ok r'
  | _ :: _ :: _, _, _ => False

/-- The fields are filled in their order, each with what is given for its name. -/
def Filled (given : String → List Doc) : List (FieldReader σ) → σ → σ → Prop
  | [], r, r' => r' = r
  | f :: fields, r, r' => ∃ m, f.Fills (given f.name) r m ∧ Filled given fields m r'

/-- Two fields have names of their own, and it does not matter which of them is put first. -/
def Apart (f g : FieldReader σ) : Prop :=
  f.name ≠ g.name ∧ ∀ d e r r',
    (∃ m, f.put d r = .ok m ∧ g.put e m = .ok r') ↔ ∃ m, g.put e r = .ok m ∧ f.put d m = .ok r'

theorem Apart.symm {f g : FieldReader σ} (h : Apart f g) : Apart g f :=
  ⟨h.1.symm, fun d e r r' => (h.2 e d r r').symm⟩

theorem filled_congr {fields : List (FieldReader σ)} {given given' : String → List Doc}
    (h : ∀ f ∈ fields, given' f.name = given f.name) {r r' : σ} :
    Filled given' fields r r' ↔ Filled given fields r r' := by
  induction fields generalizing r with
  | nil => rfl
  | cons f fields ih =>
    have hrest := fun m => ih (fun g hg => h g (List.mem_cons_of_mem f hg)) (r := m)
    simp only [Filled, h f List.mem_cons_self, hrest]

theorem filled_nothing {fields : List (FieldReader σ)} {given : String → List Doc}
    (h : ∀ f ∈ fields, given f.name = []) {r r' : σ} : Filled given fields r r' ↔ r' = r := by
  induction fields generalizing r with
  | nil => rfl
  | cons f fields ih =>
    have hrest := fun m => ih (fun g hg => h g (List.mem_cons_of_mem f hg)) (r := m)
    simp only [Filled, h f List.mem_cons_self, FieldReader.Fills, hrest, exists_eq_left]

/-- A document is put into one field before or after the other is filled. -/
theorem fills_swap {f g : FieldReader σ} (h : Apart f g) (d : Doc) (ds : List Doc) {r r' : σ} :
    (∃ m, g.Fills ds r m ∧ f.put d m = .ok r') ↔ ∃ m, f.put d r = .ok m ∧ g.Fills ds m r' := by
  match ds with
  | [] => simp [FieldReader.Fills]
  | [e] => exact (h.2 d e r r').symm
  | _ :: _ :: _ => simp [FieldReader.Fills]

/-- If one more document is given for a field, then there was none before, and it can be put into the field at once. -/
theorem filled_more {fields : List (FieldReader σ)} (hp : fields.Pairwise Apart) {f : FieldReader σ}
    (hf : f ∈ fields) {d : Doc} {given given' : String → List Doc} (hmore : given' f.name = d :: given f.name)
    (hrest : ∀ g ∈ fields, g.name ≠ f.name → given' g.name = given g.name) {r r' : σ} :
    Filled given' fields r r' ↔ given f.name = [] ∧ ∃ m, f.put d r = .ok m ∧ Filled given fields m r' := by
  induction fields generalizing r with
  | nil => cases hf
  | cons g fields ih =>
    obtain ⟨hg, hp⟩ := List.pairwise_cons.mp hp
    rcases List.mem_cons.mp hf with rfl | hmem
    · -- the field comes first: a second document for it is refused
      have hothers : ∀ m, Filled given' fields m r' ↔ Filled given fields m r' := fun m =>
        filled_congr fun g hmem => hrest g (List.mem_cons_of_mem f hmem) (hg g hmem).1.symm
      simp only [Filled, hmore, hothers]
      cases given f.name with
      | nil => simp [FieldReader.Fills]
      | cons e es => simp [FieldReader.Fills]
    · -- another field comes first: the document is put before it, which makes no difference
      have hne : g.name ≠ f.name := (hg f hmem).1
      have hstep := fun m => ih hp hmem (fun k hk => hrest k (List.mem_cons_of_mem g hk)) (r := m)
      have hswap (m' : σ) : (∃ m, g.Fills (given g.name) r m ∧ f.put d m = .ok m') ↔
          ∃ m, f.put d r = .ok m ∧ g.Fills (given g.name) m m' := fills_swap (hg f hmem).symm d (given g.name)
      simp only [Filled, hrest g List.mem_cons_self hne, hstep]
      constructor
      · rintro ⟨m, hfill, hnone, m', hput, hfilled⟩
        obtain ⟨m₁, hput₁, hfill₁⟩ := (hswap m').mp ⟨m, hfill, hput⟩
        exact ⟨hnone, m₁, hput₁, m', hfill₁, hfilled⟩
      · rintro ⟨hnone, m₁, hput₁, m', hfill₁, hfilled⟩
        obtain ⟨m, hfill, hput⟩ := (hswap m').mpr ⟨m₁, hput₁, hfill₁⟩
        exact ⟨m, hfill, hnone, m', hput, hfilled⟩

/-! ## Objects -/

theorem valuesOf_cons_of_eq {name : String} (value : Doc) (rest : Entries) :
    (Entries.cons (.plain name.toList) value rest).valuesOf name = value :: rest.valuesOf name :=
  if_pos rfl

theorem valuesOf_cons_of_ne {key : Literal} {name : String} (value : Doc) (rest : Entries)
    (h : key ≠ .plain name.toList) : (Entries.cons key value rest).valuesOf name = rest.valuesOf name :=
  if_neg h

theorem plain_toList_ne {name name' : String} (h : name' ≠ name) :
    Literal.plain name.toList ≠ .plain name'.toList := by
  intro heq
  exact h (String.toList_inj.mp (Literal.plain.inj heq).symm)

/-- The values under a name in an object that lists its entries. -/
theorem valuesOf_ofList (entries : List (String × Doc)) (name : String) :
    (Entries.ofList entries).valuesOf name = (entries.filter fun e => decide (e.1 = name)).map Prod.snd := by
  induction entries with
  | nil => rfl
  | cons e entries ih =>
    have hcons : Entries.ofList (e :: entries) = .cons (.plain e.1.toList) e.2 (Entries.ofList entries) := rfl
    rw [hcons, List.filter_cons]
    by_cases he : e.1 = name
    · subst he
      rw [valuesOf_cons_of_eq, ih, if_pos (by simp)]
      rfl
    · rw [valuesOf_cons_of_ne _ _ (plain_toList_ne (Ne.symm he)), ih, if_neg (by simpa using he)]

/-- The values under a name where entries without a value are left out. -/
theorem valuesOf_ofList_filterMap {β : Type} (slots : List (String × Option β)) (doc : β → Doc) (name : String) :
    (Entries.ofList (slots.filterMap fun slot => slot.2.map fun b => (slot.1, doc b))).valuesOf name =
      (slots.filter fun slot => decide (slot.1 = name)).flatMap fun slot => (slot.2.map doc).toList := by
  rw [valuesOf_ofList]
  induction slots with
  | nil => rfl
  | cons slot slots ih =>
    obtain ⟨n, value⟩ := slot
    cases value <;> by_cases hn : n = name <;> simpa [hn] using ih

/-- What holds of each value that is written holds of all entries where those without a value are left out. -/
theorem forall_mem_filterMap_value {β : Type} {P : Doc → Prop} {doc : β → Doc} (h : ∀ b, P (doc b))
    (slots : List (String × Option β)) :
    ∀ e ∈ slots.filterMap fun slot => slot.2.map fun b => (slot.1, doc b), P e.2 := by
  intro e he
  obtain ⟨⟨name, value⟩, -, hvalue⟩ := List.mem_filterMap.mp he
  obtain ⟨b, -, rfl⟩ := Option.map_eq_some_iff.mp hvalue
  exact h b

/-- Where an entry that is no field's stands in front, nothing changes for the fields. -/
theorem readEntries_skip {fields : List (FieldReader σ)} {name : String} (hname : ∀ f ∈ fields, f.name ≠ name)
    {seen : List String} {value : Doc} {rest : Entries} {r r' : σ} :
    readEntries fields seen (.cons (.plain name.toList) value rest) r = .ok r' ↔
      value.Complete ∧ readEntries fields seen rest r = .ok r' := by
  have hfind : (fields.find? fun f => decide (f.name = name)) = none := by
    simpa [List.find?_eq_none] using hname
  rw [readEntries, Literal.text?_plain]
  simp only [bind, Except.bind, hfind]
  cases hflaw : value.flaw? .skipped with
  | none => simp [requireSound, (Doc.flaw?_skipped_eq_none_iff value).mp hflaw]
  | some flaw =>
    have hcut : ¬ value.Complete := by
      intro h
      rw [(Doc.flaw?_skipped_eq_none_iff value).mpr h] at hflaw
      cases hflaw
    simp [requireSound, hcut]

/-- Where an entry of a field stands in front, it is put into the field, and no other may follow. -/
theorem readEntries_put {fields : List (FieldReader σ)} (hp : fields.Pairwise Apart) {f : FieldReader σ}
    (hf : f ∈ fields) {seen : List String} {value : Doc} {rest : Entries} {r r' : σ} :
    readEntries fields seen (.cons (.plain f.name.toList) value rest) r = .ok r' ↔
      f.name ∉ seen ∧ ∃ m, f.put value r = .ok m ∧ readEntries fields (f.name :: seen) rest m = .ok r' := by
  have hfind : (fields.find? fun g => decide (g.name = f.name)) = some f := by
    induction fields with
    | nil => cases hf
    | cons g fields ih =>
      obtain ⟨hg, hp⟩ := List.pairwise_cons.mp hp
      rcases List.mem_cons.mp hf with rfl | hmem
      · simp
      · rw [List.find?_cons_of_neg (by simpa using (hg f hmem).1)]
        exact ih hp hmem
  rw [readEntries, Literal.text?_plain]
  simp only [bind, Except.bind, hfind]
  by_cases hseen : f.name ∈ seen
  · simp [hseen]
  · cases hput : f.put value r <;> simp [hseen]

/-- The object can be read, it gives nothing for the fields that were seen before, and what it gives for the fields
takes the record to the other. -/
def Entries.Supplies (fields : List (FieldReader σ)) (seen : List String) (entries : Entries) (r r' : σ) : Prop :=
  entries.Readable fields ∧ (∀ f ∈ fields, f.name ∈ seen → entries.valuesOf f.name = []) ∧
    Filled entries.valuesOf fields r r'

theorem supplies_closed {fields : List (FieldReader σ)} {seen : List String} {r r' : σ} :
    Entries.closed.Supplies fields seen r r' ↔ r' = r := by
  have hfilled : Filled Entries.closed.valuesOf fields r r' ↔ r' = r := filled_nothing fun _ _ => rfl
  rw [Entries.Supplies, hfilled]
  constructor
  · rintro ⟨-, -, h⟩
    exact h
  · intro h
    exact ⟨trivial, fun _ _ _ => rfl, h⟩

theorem supplies_skip {fields : List (FieldReader σ)} {name : String} (hname : ∀ f ∈ fields, f.name ≠ name)
    {seen : List String} {value : Doc} {rest : Entries} {r r' : σ} :
    (Entries.cons (.plain name.toList) value rest).Supplies fields seen r r' ↔
      value.Complete ∧ rest.Supplies fields seen r r' := by
  have hkey : ∀ f ∈ fields, Literal.plain name.toList ≠ .plain f.name.toList :=
    fun f hf => plain_toList_ne (hname f hf)
  have hsame : ∀ f ∈ fields,
      (Entries.cons (.plain name.toList) value rest).valuesOf f.name = rest.valuesOf f.name :=
    fun f hf => valuesOf_cons_of_ne value rest (hkey f hf)
  have hnone : (∀ f ∈ fields, f.name ∈ seen →
      (Entries.cons (.plain name.toList) value rest).valuesOf f.name = []) ↔
        ∀ f ∈ fields, f.name ∈ seen → rest.valuesOf f.name = [] :=
    forall₂_congr fun f hf => by rw [hsame f hf]
  rw [Entries.Supplies, Entries.Supplies, Entries.Readable, filled_congr hsame, hnone]
  constructor
  · rintro ⟨⟨-, hvalue, hread⟩, hrest⟩
    exact ⟨hvalue hkey, hread, hrest⟩
  · rintro ⟨hvalue, hread, hrest⟩
    exact ⟨⟨by simp, fun _ => hvalue, hread⟩, hrest⟩

theorem supplies_put {fields : List (FieldReader σ)} (hp : fields.Pairwise Apart) {f : FieldReader σ} (hf : f ∈ fields)
    {seen : List String} {value : Doc} {rest : Entries} {r r' : σ} :
    (Entries.cons (.plain f.name.toList) value rest).Supplies fields seen r r' ↔
      f.name ∉ seen ∧ ∃ m, f.put value r = .ok m ∧ rest.Supplies fields (f.name :: seen) m r' := by
  have hothers : ∀ g ∈ fields, g.name ≠ f.name →
      (Entries.cons (.plain f.name.toList) value rest).valuesOf g.name = rest.valuesOf g.name :=
    fun g _ hne => valuesOf_cons_of_ne value rest (plain_toList_ne hne)
  rw [Entries.Supplies, filled_more hp hf (valuesOf_cons_of_eq value rest) hothers]
  simp only [Entries.Supplies, Entries.Readable]
  constructor
  · rintro ⟨⟨-, -, hread⟩, hnone, hlast, m, hput, hfilled⟩
    refine ⟨?_, m, hput, hread, ?_, hfilled⟩
    · intro hmem
      have hvalues := hnone f hf hmem
      rw [valuesOf_cons_of_eq] at hvalues
      cases hvalues
    · intro g hg hmem
      -- the field itself has been seen now, the others only if they were seen before
      by_cases hne : g.name = f.name
      · rw [hne]
        exact hlast
      · rw [← hothers g hg hne]
        exact hnone g hg ((List.mem_cons.mp hmem).resolve_left hne)
  · rintro ⟨hseen, m, hput, hread, hnone, hfilled⟩
    refine ⟨⟨by simp, fun h => absurd rfl (h f hf), hread⟩, ?_, hnone f hf List.mem_cons_self, m, hput, hfilled⟩
    intro g hg hmem
    have hne : g.name ≠ f.name := fun heq => hseen (heq ▸ hmem)
    rw [hothers g hg hne]
    exact hnone g hg (List.mem_cons_of_mem _ hmem)

/-- **An object is read as the record with its fields filled.** -/
theorem readEntries_eq_ok_iff {fields : List (FieldReader σ)} (hp : fields.Pairwise Apart) {seen : List String}
    {entries : Entries} {r r' : σ} :
    readEntries fields seen entries r = .ok r' ↔ entries.Supplies fields seen r r' := by
  match entries with
  | .closed =>
    rw [supplies_closed]
    simp [readEntries, eq_comm]
  | .cut fault => simp [readEntries, Entries.Supplies, Entries.Readable]
  | .cons .unpaired value rest =>
    simp [readEntries, Literal.text?, bind, Except.bind, Entries.Supplies, Entries.Readable]
  | .cons (.plain text) value rest =>
    obtain ⟨name, rfl⟩ := exists_toList text
    by_cases hname : ∃ f ∈ fields, f.name = name
    · obtain ⟨f, hf, rfl⟩ := hname
      rw [readEntries_put hp hf, supplies_put hp hf]
      refine and_congr_right fun _ => exists_congr fun m => and_congr_right fun _ => ?_
      exact readEntries_eq_ok_iff hp
    · have hname : ∀ f ∈ fields, f.name ≠ name := fun f hf heq => hname ⟨f, hf, heq⟩
      rw [readEntries_skip hname, supplies_skip hname, readEntries_eq_ok_iff hp]

/-! ## Arrays -/

theorem positional_cons_of_ne {n name : String} (h : name ≠ n) (names : List String) (d : Doc) (docs : List Doc) :
    positional (n :: names) (d :: docs) name = positional names docs name :=
  if_neg h

/-- **An array is read as the record with its fields filled,** if it has no more items than there are fields. -/
theorem readItems_eq_ok_iff {surplus : ReadError} {fields : List (FieldReader σ)} (hp : fields.Pairwise Apart)
    {items : Items} {r r' : σ} : readItems surplus fields items r = .ok r' ↔
      items.Closed ∧ items.toList.length ≤ fields.length ∧
        Filled (positional (fieldNames fields) items.toList) fields r r' := by
  match fields, items with
  | fields, .closed =>
    have hnothing : ∀ f ∈ fields, positional (fieldNames fields) Items.closed.toList f.name = [] :=
      fun f _ => positional_nil (fieldNames fields) f.name
    rw [filled_nothing hnothing]
    cases fields <;> simp [readItems, Items.Closed, Items.toList, eq_comm]
  | fields, .cut fault => cases fields <;> simp [readItems, Items.Closed]
  | [], .cons item rest => simp [readItems, Items.toList]
  | f :: fields, .cons item rest =>
    obtain ⟨hf, hp⟩ := List.pairwise_cons.mp hp
    have hothers : ∀ g ∈ fields, positional (fieldNames (f :: fields)) (item :: rest.toList) g.name =
        positional (fieldNames fields) rest.toList g.name :=
      fun g hg => positional_cons_of_ne (hf g hg).1.symm (fieldNames fields) item rest.toList
    have hfirst : positional (fieldNames (f :: fields)) (item :: rest.toList) f.name = [item] := if_pos rfl
    rw [readItems, bind_eq_ok_iff]
    simp only [readItems_eq_ok_iff hp, Items.toList, Filled, hfirst, filled_congr hothers, FieldReader.Fills,
      Items.Closed, List.length_cons, Nat.add_le_add_iff_right]
    constructor
    · rintro ⟨m, hput, hclosed, hlength, hfilled⟩
      exact ⟨hclosed, hlength, m, hput, hfilled⟩
    · rintro ⟨hclosed, hlength, m, hput, hfilled⟩
      exact ⟨m, hput, hclosed, hlength, hfilled⟩

/-! ## Records -/

/-- The documents that are read as a record, starting from another. -/
inductive Layout.Reads (layout : Layout σ) (start r : σ) : Doc → Prop
  | object {entries : Entries} (hread : entries.Readable layout.fields)
      (hfilled : Filled entries.valuesOf layout.fields start r) : Reads layout start r (.object entries)
  | array {items : Items} (hclosed : items.Closed) (hlength : items.toList.length ≤ layout.fields.length)
      (hfilled : Filled (positional (fieldNames layout.fields) items.toList) layout.fields start r) :
      Reads layout start r (.array items)

/-- **Which documents are read as a record, and as which.** -/
theorem Layout.read_eq_ok_iff {layout : Layout σ} (hp : layout.fields.Pairwise Apart) {surplus : ReadError}
    {start r : σ} {d : Doc} : layout.read surplus start d = .ok r ↔ layout.Reads start r d := by
  cases d with
  | object entries =>
    rw [read, readEntries_eq_ok_iff hp]
    constructor
    · rintro ⟨hread, -, hfilled⟩
      exact .object hread hfilled
    · rintro ⟨hread, hfilled⟩
      exact ⟨hread, fun f _ hmem => (List.not_mem_nil hmem).elim, hfilled⟩
  | array items =>
    rw [read, readItems_eq_ok_iff hp]
    constructor
    · rintro ⟨hclosed, hlength, hfilled⟩
      exact .array hclosed hlength hfilled
    · rintro (_ | ⟨hclosed, hlength, hfilled⟩)
      exact ⟨hclosed, hlength, hfilled⟩
  | _ => exact ⟨fun h => absurd h (Doc.mismatch_ne_ok _ _ r), fun h => (nomatch h)⟩

/-! ## Fields that set one part -/

/-- The field sets one part of the record, to a value that its document means. -/
def FieldReader.Sets {α : Type} (f : FieldReader σ) (means : Doc → α → Prop) (set : α → σ → σ) : Prop :=
  ∀ d r r', f.put d r = .ok r' ↔ ∃ a, means d a ∧ r' = set a r

section
variable {α β : Type} {f g : FieldReader σ} {means : Doc → α → Prop} {set : α → σ → σ}
  {means' : Doc → β → Prop} {set' : β → σ → σ}

/-- A field that decodes its document and sets a part to what it finds. -/
theorem sets_of_decode {decode : Doc → Read α} (hdecode : ∀ d a, decode d = .ok a ↔ means d a) (name : String)
    (set : α → σ → σ) : (FieldReader.mk name fun d r => do .ok (set (← decode d) r)).Sets means set := by
  intro d r r'
  rw [bind_eq_ok_iff]
  constructor
  · rintro ⟨a, ha, h⟩
    exact ⟨a, (hdecode d a).mp ha, (Except.ok.inj h).symm⟩
  · rintro ⟨a, ha, rfl⟩
    exact ⟨a, (hdecode d a).mpr ha, rfl⟩

/-- Fields that set different parts are apart. -/
theorem FieldReader.Sets.apart (hf : f.Sets means set) (hg : g.Sets means' set') (hname : f.name ≠ g.name)
    (hcomm : ∀ a b r, set' b (set a r) = set a (set' b r)) : Apart f g := by
  refine ⟨hname, ?_⟩
  intro d e r r'
  simp only [hf d, hg e]
  constructor
  · rintro ⟨_, ⟨a, ha, rfl⟩, b, hb, rfl⟩
    exact ⟨_, ⟨b, hb, rfl⟩, a, ha, hcomm a b r⟩
  · rintro ⟨_, ⟨b, hb, rfl⟩, a, ha, rfl⟩
    exact ⟨_, ⟨a, ha, rfl⟩, b, hb, (hcomm a b r).symm⟩

/-- One document is given, and it means this value. -/
def Once (means : Doc → α → Prop) (ds : List Doc) (a : α) : Prop := ∃ d, ds = [d] ∧ means d a

/-- One document is given that means this value, or none, and it is the default. -/
def AtMostOnce (means : Doc → α → Prop) (default : α) (ds : List Doc) (a : α) : Prop :=
  ds = [] ∧ a = default ∨ Once means ds a

/-- A field whose part has its default is filled with what is given for it. -/
theorem FieldReader.Sets.fills_iff (hf : f.Sets means set) {default : α} {r : σ} (hdefault : set default r = r)
    {ds : List Doc} {r' : σ} : f.Fills ds r r' ↔ ∃ a, AtMostOnce means default ds a ∧ r' = set a r := by
  match ds with
  | [] => simp [Fills, AtMostOnce, Once, hdefault]
  | [d] => simp [Fills, AtMostOnce, Once, hf d r r']
  | _ :: _ :: _ => simp [Fills, AtMostOnce, Once]

end

end ClientRoster.Json
