import ClientRoster.Proofs.Json.Cut
import ClientRoster.Proofs.Json.Reading

/-!
# `ClientRoster.Proofs.Json.Accepted` — what is read as a document is a text of it

The reader keeps no record of what it has passed over, but its stack does: the tokens behind it can be told from the
state alone (`State.spent`), and each step adds one token to them. A run that ends with a complete document has passed
over the words of that document, and a text that is laid out from the words of a document is a text of it.

## Contents
- `State.spent`, `spent_next`: one step.
- `readTokens_sound`: a run.
- `Doc.written_of_laid`: from words to characters.
- **`isText_iff`: a text is one of a complete document exactly if it is read as that document.**
-/

namespace ClientRoster.Json

/-! ## What a state has passed over -/

/-- The tokens up to where the next item stands. -/
def opened : List Doc → List Token
  | [] => [.openArray]
  | d :: before => opened before ++ (d.words ++ [.comma])

/-- The tokens up to where the next key stands. -/
def openedEntries : List (Literal × Doc) → List Token
  | [] => [.openObject]
  | (key, d) :: before => openedEntries before ++ (.literal key :: .colon :: (d.words ++ [.comma]))

/-- The tokens up to where the innermost document stands. -/
def spentFrames : List Frame → List Token
  | [] => []
  | .array before :: frames => spentFrames frames ++ opened before
  | .object before key :: frames => spentFrames frames ++ (openedEntries before ++ [.literal key, .colon])

/-- The tokens that the reader has passed over. -/
def State.spent : State → List Token
  | value frames => spentFrames frames
  | first frames => spentFrames frames ++ [.openArray]
  | after d frames => spentFrames frames ++ d.words
  | key _ before frames => spentFrames frames ++ openedEntries before
  | colon before k frames => spentFrames frames ++ (openedEntries before ++ [.literal k])

/-- A fresh object has no entries yet. -/
def State.Sane : State → Prop
  | key true before _ => before = []
  | _ => True

theorem words_after (before : List Doc) (d : Doc) (rest : Items) :
    Token.openArray :: (Items.after before (.cons d rest)).words true =
      opened before ++ (d.words ++ rest.words false) := by
  induction before generalizing d rest with
  | nil => rfl
  | cons b before ih =>
    have hafter : Items.after (b :: before) (.cons d rest) = Items.after before (.cons b (.cons d rest)) := rfl
    rw [hafter, ih, opened]
    simp [Items.words]

theorem words_afterEntries (before : List (Literal × Doc)) (key : Literal) (d : Doc) (rest : Entries) :
    Token.openObject :: (Entries.after before (.cons key d rest)).words true =
      openedEntries before ++ (.literal key :: .colon :: (d.words ++ rest.words false)) := by
  induction before generalizing key d rest with
  | nil => rfl
  | cons e before ih =>
    have hafter : Entries.after (e :: before) (.cons key d rest) =
        Entries.after before (.cons e.1 e.2 (.cons key d rest)) := rfl
    rw [hafter, ih, openedEntries]
    simp [Entries.words]

/-- A document begins with its first token. -/
theorem spent_begin {frames : List Frame} {token : Token} {state : State} (h : State.begin frames token = .ok state) :
    state.spent = spentFrames frames ++ [token] ∧ state.Sane := by
  cases token <;> cases h <;> exact ⟨rfl, by trivial⟩

/-- What follows a document stands behind its words. -/
theorem spent_follow {d : Doc} {frames : List Frame} {token : Token} {state : State}
    (h : State.follow d frames token = .ok state) :
    state.spent = spentFrames frames ++ d.words ++ [token] ∧ state.Sane := by
  match frames, token with
  | .array before :: frames, .comma =>
    cases h
    exact ⟨by simp [State.spent, spentFrames, opened], trivial⟩
  | .array before :: frames, .closeArray =>
    cases h
    have hwords : Token.openArray :: (Items.after (d :: before) .closed).words true = _ := words_after before d .closed
    refine ⟨?_, trivial⟩
    simpa [State.spent, spentFrames, Doc.words, Items.words] using hwords
  | .object before key :: frames, .comma =>
    cases h
    exact ⟨by simp [State.spent, spentFrames, openedEntries], trivial⟩
  | .object before key :: frames, .closeObject =>
    cases h
    have hwords : Token.openObject :: (Entries.after ((key, d) :: before) .closed).words true = _ :=
      words_afterEntries before key d .closed
    refine ⟨?_, trivial⟩
    simpa [State.spent, spentFrames, Doc.words, Entries.words] using hwords

/-- **Each step adds its token to what the reader has passed over.** -/
theorem spent_next {state state' : State} {token : Token} (hsane : state.Sane) (h : state.next token = .ok state') :
    state'.spent = state.spent ++ [token] ∧ state'.Sane := by
  cases state with
  | value frames => exact spent_begin h
  | after d frames => exact spent_follow h
  | first frames =>
    by_cases hclose : token = .closeArray
    · -- an empty array
      subst hclose
      cases h
      exact ⟨by simp [State.spent, Doc.words, Items.words], trivial⟩
    · have hbegin : State.begin (.array [] :: frames) token = .ok state' := by
        rw [← h]
        cases token <;> first | rfl | exact absurd rfl hclose
      exact spent_begin hbegin
  | key fresh before frames =>
    cases token with
    | literal l =>
      cases h
      exact ⟨by simp [State.spent], trivial⟩
    | closeObject =>
      cases fresh with
      | true =>
        -- an object is closed before its first key only while it is empty
        obtain rfl : before = [] := hsane
        cases h
        refine ⟨?_, trivial⟩
        simp [State.spent, openedEntries, Entries.after, Doc.words, Entries.words]
      | false => cases h
    | _ => cases fresh <;> cases h
  | colon before k frames =>
    cases token with
    | colon =>
      cases h
      exact ⟨by simp [State.spent, spentFrames], trivial⟩
    | _ => cases h

/-! ## A reading that stops -/

theorem not_complete_after {before : List Doc} {rest : Items} (h : ¬ rest.Complete) :
    ¬ (Doc.array (Items.after before rest)).Complete := by
  induction before generalizing rest with
  | nil => exact h
  | cons d before ih => exact ih fun hcons => h hcons.2

theorem not_complete_afterEntries {before : List (Literal × Doc)} {rest : Entries} (h : ¬ rest.Complete) :
    ¬ (Doc.object (Entries.after before rest)).Complete := by
  induction before generalizing rest with
  | nil => exact h
  | cons e before ih => exact ih fun hcons => h hcons.2

theorem not_complete_foldUp {fault : Fault} {d : Doc} (h : ¬ d.Complete) (frames : List Frame) :
    ¬ (foldUp fault d frames).Complete := by
  induction frames generalizing d with
  | nil => exact h
  | cons frame frames ih =>
    cases frame with
    | array before => exact ih (not_complete_after fun hcons => hcons.2)
    | object before key => exact ih (not_complete_afterEntries fun hcons => hcons.2)

/-- Where reading stops with something open, there is no complete document. -/
theorem not_complete_stop {fault : Fault} {state : State} (hopen : ∀ d, state ≠ .after d []) :
    ¬ (state.stop fault).Complete := by
  have hbroken : ¬ (Doc.broken fault).Complete := fun h => h
  have hitems : ¬ (Items.cut fault).Complete := fun h => h
  have hentries : ¬ (Entries.cut fault).Complete := fun h => h
  cases state with
  | value frames => exact not_complete_foldUp hbroken frames
  | first frames =>
    have harray : ¬ (Doc.array (.cut fault)).Complete := hitems
    exact not_complete_foldUp harray frames
  | after d frames =>
    match frames with
    | [] => exact absurd rfl (hopen d)
    | .array before :: frames => exact not_complete_foldUp (not_complete_after hitems) frames
    | .object before k :: frames => exact not_complete_foldUp (not_complete_afterEntries hentries) frames
  | key fresh before frames => exact not_complete_foldUp (not_complete_afterEntries hentries) frames
  | colon before k frames =>
    have hvalue : ¬ (Entries.cons k (.broken fault) (.cut fault)).Complete := fun h => h.1
    exact not_complete_foldUp (not_complete_afterEntries hvalue) frames

/-! ## A whole reading -/

/-- **A run that ends with a complete document has passed over its words.** -/
theorem readTokens_sound {state : State} {ts : List Token} (hsane : state.Sane)
    (hc : (readTokens state ts).1.Complete) :
    state.spent ++ ts = (readTokens state ts).1.words ++ (readTokens state ts).2 := by
  fun_induction readTokens state ts with
  | case1 d rest => simp [State.spent, spentFrames]
  | case2 state hopen => exact absurd hc (not_complete_stop hopen)
  | case3 state token rest hopen next hnext ih =>
    obtain ⟨hspent, hsane'⟩ := spent_next hsane hnext
    rw [← ih hsane' hc, hspent, List.append_assoc]
    rfl
  | case4 state token rest hopen fault hnext => exact absurd hc (not_complete_stop hopen)

/-! ## From words to characters -/

theorem whole_comma (first : Bool) : ∀ token ∈ (if first then [] else [Token.comma]), token.Whole := by
  cases first <;> simp [Token.Whole]

mutual

theorem Doc.whole_words {d : Doc} (h : d.Complete) : ∀ token ∈ d.words, token.Whole := by
  match d with
  | .null | .bool _ | .numeral _ | .literal _ => simp [Doc.words, Token.Whole]
  | .array items => exact List.forall_mem_cons.mpr ⟨trivial, Items.whole_words h true⟩
  | .object entries => exact List.forall_mem_cons.mpr ⟨trivial, Entries.whole_words h true⟩

theorem Items.whole_words {items : Items} (h : items.Complete) (first : Bool) :
    ∀ token ∈ items.words first, token.Whole := by
  match items with
  | .closed => simp [Items.words, Token.Whole]
  | .cons item rest =>
    have hitem : ∀ token ∈ item.words ++ rest.words false, token.Whole :=
      List.forall_mem_append.mpr ⟨Doc.whole_words h.1, Items.whole_words h.2 false⟩
    exact List.forall_mem_append.mpr ⟨whole_comma first, hitem⟩

theorem Entries.whole_words {entries : Entries} (h : entries.Complete) (first : Bool) :
    ∀ token ∈ entries.words first, token.Whole := by
  match entries with
  | .closed => simp [Entries.words, Token.Whole]
  | .cons key value rest =>
    have hvalue : ∀ token ∈ value.words ++ rest.words false, token.Whole :=
      List.forall_mem_append.mpr ⟨Doc.whole_words h.1, Entries.whole_words h.2 false⟩
    have hentry : ∀ token ∈ Token.literal key :: .colon :: (value.words ++ rest.words false), token.Whole :=
      List.forall_mem_cons.mpr ⟨trivial, List.forall_mem_cons.mpr ⟨trivial, hvalue⟩⟩
    exact List.forall_mem_append.mpr ⟨whole_comma first, hentry⟩

end

/-- One token is taken off the front of a text. -/
theorem Laid.cons_inv {token : Token} {more : List Token} {text : List Char} (h : Laid (token :: more) text) :
    ∃ spaces cs rest, text = spaces ++ (cs ++ rest) ∧ Spaces spaces ∧ token.Written cs ∧ Laid more rest := by
  cases h with
  | cons hs h hrest => exact ⟨_, _, _, rfl, hs, h, hrest⟩

/-- What separates an item from the one before is taken off the front of a text, up to the white space behind it. -/
theorem Laid.separated {first : Bool} {more : List Token} {text : List Char}
    (h : Laid ((if first then [] else [.comma]) ++ more) text) :
    ∃ sep rest, text = sep ++ rest ∧ (∀ spaces, Spaces spaces → Separates first (sep ++ spaces)) ∧ Laid more rest := by
  cases first with
  | true => exact ⟨[], text, rfl, fun _ hs => .first hs, h⟩
  | false =>
    obtain ⟨front, cs, rest, htext, hfront, hcomma, hrest⟩ := h.cons_inv
    cases hcomma
    refine ⟨front ++ [','], rest, by simp [htext], ?_, hrest⟩
    intro spaces hs
    rw [List.append_assoc]
    exact .comma hfront hs

mutual

/-- **A text that is laid out from the words of a document begins with a written form of it.** -/
theorem Doc.written_of_laid {d : Doc} (hc : d.Complete) {ts : List Token} {text : List Char}
    (h : Laid (d.words ++ ts) text) :
    ∃ spaces cs rest, text = spaces ++ (cs ++ rest) ∧ Spaces spaces ∧ d.Written cs ∧ Laid ts rest := by
  match d with
  | .null =>
    obtain ⟨spaces, cs, rest, htext, hs, hwritten, hrest⟩ := h.cons_inv
    cases hwritten
    exact ⟨spaces, _, rest, htext, hs, .null, hrest⟩
  | .bool b =>
    obtain ⟨spaces, cs, rest, htext, hs, hwritten, hrest⟩ := h.cons_inv
    cases hwritten with
    | true => exact ⟨spaces, _, rest, htext, hs, .true, hrest⟩
    | false => exact ⟨spaces, _, rest, htext, hs, .false, hrest⟩
  | .numeral n =>
    obtain ⟨spaces, cs, rest, htext, hs, hwritten, hrest⟩ := h.cons_inv
    cases hwritten with
    | numeral hn => exact ⟨spaces, cs, rest, htext, hs, .numeral hn, hrest⟩
  | .literal l =>
    obtain ⟨spaces, cs, rest, htext, hs, hwritten, hrest⟩ := h.cons_inv
    cases hwritten with
    | literal hl => exact ⟨spaces, cs, rest, htext, hs, .literal hl, hrest⟩
  | .array items =>
    obtain ⟨spaces, cs, rest, htext, hs, hwritten, hrest⟩ := h.cons_inv
    cases hwritten
    obtain ⟨ds, rest, rfl, hitems, hrest⟩ := Items.written_of_laid hc hrest
    exact ⟨spaces, '[' :: ds, rest, htext, hs, .array hitems, hrest⟩
  | .object entries =>
    obtain ⟨spaces, cs, rest, htext, hs, hwritten, hrest⟩ := h.cons_inv
    cases hwritten
    obtain ⟨ds, rest, rfl, hentries, hrest⟩ := Entries.written_of_laid hc hrest
    exact ⟨spaces, '{' :: ds, rest, htext, hs, .object hentries, hrest⟩

theorem Items.written_of_laid {items : Items} (hc : items.Complete) {first : Bool} {ts : List Token}
    {text : List Char} (h : Laid (items.words first ++ ts) text) :
    ∃ cs rest, text = cs ++ rest ∧ items.Written first cs ∧ Laid ts rest := by
  match items with
  | .closed =>
    obtain ⟨spaces, cs, rest, htext, hs, hwritten, hrest⟩ := h.cons_inv
    cases hwritten
    exact ⟨spaces ++ [']'], rest, by simp [htext], .closed hs, hrest⟩
  | .cons item more =>
    rw [Items.words, List.append_assoc, List.append_assoc] at h
    obtain ⟨sep, text, rfl, hsep, h⟩ := h.separated
    obtain ⟨spaces, cs, rest, rfl, hs, hitem, hrest⟩ := Doc.written_of_laid hc.1 h
    obtain ⟨ds, rest, rfl, hmore, hrest⟩ := Items.written_of_laid hc.2 hrest
    exact ⟨(sep ++ spaces) ++ (cs ++ ds), rest, by simp, .cons (hsep spaces hs) hitem hmore, hrest⟩

theorem Entries.written_of_laid {entries : Entries} (hc : entries.Complete) {first : Bool} {ts : List Token}
    {text : List Char} (h : Laid (entries.words first ++ ts) text) :
    ∃ cs rest, text = cs ++ rest ∧ entries.Written first cs ∧ Laid ts rest := by
  match entries with
  | .closed =>
    obtain ⟨spaces, cs, rest, htext, hs, hwritten, hrest⟩ := h.cons_inv
    cases hwritten
    exact ⟨spaces ++ ['}'], rest, by simp [htext], .closed hs, hrest⟩
  | .cons key value more =>
    rw [Entries.words, List.append_assoc] at h
    obtain ⟨sep, text, rfl, hsep, hentry⟩ := h.separated
    obtain ⟨spaces, ks, text, rfl, hs, hkey, hbehind⟩ := hentry.cons_inv
    obtain ⟨front, cs, text, rfl, hfront, hcolon, hlaid⟩ := hbehind.cons_inv
    cases hkey with
    | literal hkey =>
      cases hcolon
      have hlaid : Laid (value.words ++ (more.words false ++ ts)) text := by
        rw [← List.append_assoc]
        exact hlaid
      obtain ⟨back, cs, rest, rfl, hback, hvalue, hrest⟩ := Doc.written_of_laid hc.1 hlaid
      obtain ⟨ds, rest, rfl, hmore, hrest⟩ := Entries.written_of_laid hc.2 hrest
      refine ⟨(sep ++ spaces) ++ (ks ++ ((front ++ ':' :: back) ++ (cs ++ ds))), rest, by simp, ?_, hrest⟩
      exact .cons (hsep spaces hs) hkey (.intro hfront hback) hvalue hmore

end

/-- **A text is one of a document exactly if it is read as that document,** which is complete and the last in it. -/
theorem isText_iff {d : Doc} {text : List Char} : d.IsText text ↔ readDoc text = ⟨d, false⟩ ∧ d.Complete := by
  constructor
  · intro h
    exact ⟨readDoc_isText h, h.complete⟩
  · rintro ⟨hread, hc⟩
    unfold readDoc at hread
    obtain ⟨rfl, hlast⟩ := Reading.mk.inj hread
    have hnothing : (readTokens (.value []) (tokens text)).2 = [] := by
      simpa using hlast
    -- the run took all tokens, so they are the words of the document
    have hsane : (State.value []).Sane := trivial
    have hwords : tokens text = (readTokens (.value []) (tokens text)).1.words ++ [] := by
      rw [← hnothing, ← readTokens_sound hsane hc]
      rfl
    have hlaid : Laid (tokens text) text := by
      refine laid_tokens ?_
      rw [hwords, List.append_nil]
      exact Doc.whole_words hc
    rw [hwords] at hlaid
    obtain ⟨front, cs, back, htext, hfront, hwritten, hback⟩ := Doc.written_of_laid hc hlaid
    cases hback with
    | nil hback =>
      have hform : Doc.IsText (readTokens (.value []) (tokens text)).1 (front ++ (cs ++ back)) :=
        .intro hfront hwritten hback
      rwa [← htext] at hform

end ClientRoster.Json
