import ClientRoster.Json.Doc.Reader
import ClientRoster.Proofs.Json.Tokens

/-!
# `ClientRoster.Proofs.Json.Reading` — a written document is read as itself

The reader goes through the tokens with a stack of what is open. The words of a document take it from waiting for a
value to having that value, whatever the stack holds and whatever follows (`readTokens_words`); the stack is where the
induction on the document needs room.

## Contents
- `Doc.Complete`, `Items.Complete`, `Entries.Complete`: documents without a fault; all written documents are complete.
- `readTokens_words`, and **`readDoc_isText`: each text of a document is read as that document**.
- `isText_unique`: a text is a text of at most one document.
-/

namespace ClientRoster.Json

mutual

/-- Reading did not stop within the document. -/
def Doc.Complete : Doc → Prop
  | .null | .bool _ | .numeral _ | .literal _ => True
  | .array items => items.Complete
  | .object entries => entries.Complete
  | .broken _ => False

/-- Reading did not stop before the bracket. -/
def Items.Complete : Items → Prop
  | .closed => True
  | .cut _ => False
  | .cons item rest => item.Complete ∧ rest.Complete

/-- Reading did not stop before the brace. -/
def Entries.Complete : Entries → Prop
  | .closed => True
  | .cut _ => False
  | .cons _ value rest => value.Complete ∧ rest.Complete

end

mutual

theorem Doc.Written.complete {d : Doc} {cs : List Char} (h : d.Written cs) : d.Complete := by
  cases h with
  | null | true | false | numeral _ | literal _ => trivial
  | array h => exact Items.Written.complete h
  | object h => exact Entries.Written.complete h

theorem Items.Written.complete {first : Bool} {items : Items} {cs : List Char} (h : items.Written first cs) :
    items.Complete := by
  cases h with
  | closed _ => trivial
  | cons _ h hrest => exact ⟨Doc.Written.complete h, Items.Written.complete hrest⟩

theorem Entries.Written.complete {first : Bool} {entries : Entries} {cs : List Char}
    (h : entries.Written first cs) : entries.Complete := by
  cases h with
  | closed _ => trivial
  | cons _ _ _ h hrest => exact ⟨Doc.Written.complete h, Entries.Written.complete hrest⟩

end

/-! ## One token of the reader -/

/-- As long as something is open, the reader takes one token after the other. -/
theorem readTokens_cons {state next : State} {token : Token} (hopen : ∀ d, state ≠ .after d [])
    (hnext : state.next token = .ok next) (rest : List Token) :
    readTokens state (token :: rest) = readTokens next rest := by
  cases state with
  | after d frames =>
    cases frames with
    | nil => exact absurd rfl (hopen d)
    | cons frame frames => simp only [readTokens, hnext]
  | value frames => simp only [readTokens, hnext]
  | first frames => simp only [readTokens, hnext]
  | key fresh before frames => simp only [readTokens, hnext]
  | colon before k frames => simp only [readTokens, hnext]

theorem readTokens_value {frames : List Frame} {next : State} {token : Token}
    (hbegin : State.begin frames token = .ok next) (rest : List Token) :
    readTokens (.value frames) (token :: rest) = readTokens next rest := by
  have hnext : State.next (.value frames) token = .ok next := hbegin
  exact readTokens_cons (by simp) hnext rest

theorem readTokens_follow {d : Doc} {frame : Frame} {frames : List Frame} {next : State} {token : Token}
    (hfollow : State.follow d (frame :: frames) token = .ok next) (rest : List Token) :
    readTokens (.after d (frame :: frames)) (token :: rest) = readTokens next rest := by
  have hnext : State.next (.after d (frame :: frames)) token = .ok next := hfollow
  exact readTokens_cons (by simp) hnext rest

/-- Every document begins with a token that a document can begin with. -/
theorem Doc.words_cons {d : Doc} (h : d.Complete) (frames : List Frame) :
    ∃ token rest next, d.words = token :: rest ∧ token ≠ .closeArray ∧ State.begin frames token = .ok next := by
  cases d with
  | null => exact ⟨_, _, _, rfl, by simp, rfl⟩
  | bool b => exact ⟨_, _, _, rfl, by simp, rfl⟩
  | numeral n => exact ⟨_, _, _, rfl, by simp, rfl⟩
  | literal l => exact ⟨_, _, _, rfl, by simp, rfl⟩
  | array items => exact ⟨_, _, _, rfl, by simp, rfl⟩
  | object entries => exact ⟨_, _, _, rfl, by simp, rfl⟩
  | broken fault => cases h

/-- Where the first item of an array may stand, a document is read as where any document may stand. -/
theorem readTokens_first {d : Doc} (h : d.Complete) (frames : List Frame) (rest : List Token) :
    readTokens (.first frames) (d.words ++ rest) = readTokens (.value (.array [] :: frames)) (d.words ++ rest) := by
  obtain ⟨token, tail, next, hwords, hne, hbegin⟩ := Doc.words_cons h (.array [] :: frames)
  -- the two states differ only in what the closing bracket means
  have hfirst : State.next (.first frames) token = .ok next := by
    rw [← hbegin]
    cases token <;> first | rfl | exact absurd rfl hne
  rw [hwords, List.cons_append, readTokens_cons (by simp) hfirst, readTokens_value hbegin]

/-! ## The words of a document -/

mutual

/-- **The words of a document take the reader from waiting for it to having it.** -/
theorem Doc.readTokens_words {d : Doc} (h : d.Complete) (frames : List Frame) (rest : List Token) :
    readTokens (.value frames) (d.words ++ rest) = readTokens (.after d frames) rest := by
  match d with
  | .null => exact readTokens_value rfl rest
  | .bool b => exact readTokens_value rfl rest
  | .numeral n => exact readTokens_value rfl rest
  | .literal l => exact readTokens_value rfl rest
  | .array .closed =>
    simp only [Doc.words, Items.words, List.cons_append]
    rw [readTokens_value rfl]
    exact readTokens_cons (by simp) rfl rest
  | .array (.cons item more) =>
    simp only [Doc.words, Items.words, if_true, List.nil_append, List.cons_append, List.append_assoc]
    rw [readTokens_value rfl, readTokens_first h.1, Doc.readTokens_words h.1,
      Items.readTokens_words h.2 item []]
    rfl
  | .object .closed =>
    simp only [Doc.words, Entries.words, List.cons_append]
    rw [readTokens_value rfl]
    exact readTokens_cons (by simp) rfl rest
  | .object (.cons key value more) =>
    simp only [Doc.words, Entries.words, if_true, List.nil_append, List.cons_append, List.append_assoc]
    rw [readTokens_value rfl, readTokens_cons (by simp) rfl, readTokens_cons (by simp) rfl,
      Doc.readTokens_words h.1, Entries.readTokens_words h.2 key value []]
    rfl

/-- The words behind an item bring the array to its end. -/
theorem Items.readTokens_words {items : Items} (h : items.Complete) (d : Doc) (before : List Doc)
    (frames : List Frame) (rest : List Token) :
    readTokens (.after d (.array before :: frames)) (items.words false ++ rest) =
      readTokens (.after (.array (.after (d :: before) items)) frames) rest := by
  match items with
  | .closed => exact readTokens_follow rfl rest
  | .cons item more =>
    simp only [Items.words, Bool.false_eq_true, if_false, List.cons_append, List.nil_append, List.append_assoc]
    rw [readTokens_follow rfl, Doc.readTokens_words h.1, Items.readTokens_words h.2 item (d :: before)]
    rfl

/-- The words behind an entry bring the object to its end. -/
theorem Entries.readTokens_words {entries : Entries} (h : entries.Complete) (key : Literal) (d : Doc)
    (before : List (Literal × Doc)) (frames : List Frame) (rest : List Token) :
    readTokens (.after d (.object before key :: frames)) (entries.words false ++ rest) =
      readTokens (.after (.object (.after ((key, d) :: before) entries)) frames) rest := by
  match entries with
  | .closed => exact readTokens_follow rfl rest
  | .cons k value more =>
    simp only [Entries.words, Bool.false_eq_true, if_false, List.cons_append, List.nil_append, List.append_assoc]
    rw [readTokens_follow rfl, readTokens_cons (by simp) rfl, readTokens_cons (by simp) rfl,
      Doc.readTokens_words h.1, Entries.readTokens_words h.2 k value ((key, d) :: before)]
    rfl

end

/-! ## Texts -/

theorem tokens_of_spaces {cs : List Char} (h : Spaces cs) : tokens cs = [] := by
  have htokens := tokens_spaces h []
  rwa [List.append_nil, tokens_nil] at htokens

theorem ends_of_spaces {cs : List Char} (h : Spaces cs) : Ends cs := by
  have hnil : Ends [] := by
    intro c hc
    cases hc
  have hends := ends_spaces h hnil
  rwa [List.append_nil] at hends

/-- **Each text of a document is read as that document.** -/
theorem readDoc_isText {d : Doc} {text : List Char} (h : d.IsText text) : readDoc text = ⟨d, false⟩ := by
  cases h with
  | intro hf h hb =>
    unfold readDoc
    rw [tokens_spaces hf, Doc.tokens_written h (ends_of_spaces hb), tokens_of_spaces hb,
      Doc.readTokens_words h.complete]
    simp [readTokens]

theorem Doc.IsText.complete {d : Doc} {text : List Char} (h : d.IsText text) : d.Complete := by
  cases h with
  | intro _ h _ => exact h.complete

/-- A text of a document is not empty: the empty text is read as a document without an end. -/
theorem Doc.IsText.ne_nil {d : Doc} {text : List Char} (h : d.IsText text) : text ≠ [] := by
  rintro rfl
  have hbroken : readDoc [] = ⟨.broken .ended, false⟩ := by
    simp [readDoc, tokens_nil, readTokens, State.stop, foldUp]
  have hread := readDoc_isText h
  rw [hbroken] at hread
  obtain ⟨rfl, -⟩ := Reading.mk.inj hread
  exact h.complete

/-- A text is a text of one document at most. -/
theorem isText_unique {d e : Doc} {text : List Char} (hd : d.IsText text) (he : e.IsText text) : d = e := by
  have hread := readDoc_isText hd
  rw [readDoc_isText he] at hread
  exact (congrArg Reading.doc hread).symm

end ClientRoster.Json
