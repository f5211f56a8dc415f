import ClientRoster.Json.Doc

/-!
# `ClientRoster.Json.Doc.Reader` — from tokens to a document

The reader goes through the tokens once, with a stack of the arrays and objects that are still open. Whatever
happens, the stack can be folded up into a document that ends there, so every text has one.

## Contents
- `Frame`, `State`, `State.next`: one token.
- `readTokens`: all tokens of the first document, and those behind it.
- `readDoc`: a text as a document, and whether anything follows it.
-/

namespace ClientRoster.Json

/-- An open array or object around the place where the reader is; lists hold what was read last first. -/
inductive Frame
  | array (before : List Doc)
  | object (before : List (Literal × Doc)) (key : Literal)

/-- The document around `d`, in which nothing follows `d` because reading stops. -/
def foldUp (fault : Fault) (d : Doc) : List Frame → Doc
  | [] => d
  | .array before :: frames => foldUp fault (.array (.after before (.cons d (.cut fault)))) frames
  | .object before key :: frames =>
    foldUp fault (.object (.after before (.cons key d (.cut fault)))) frames

/-- What the reader expects next. -/
inductive State
  /-- A document. -/
  | value (frames : List Frame)
  /-- The first item of an array, or its bracket. -/
  | first (frames : List Frame)
  /-- What may follow a complete document. -/
  | after (d : Doc) (frames : List Frame)
  /-- A key, or the brace if the object is fresh. -/
  | key (fresh : Bool) (before : List (Literal × Doc)) (frames : List Frame)
  /-- The colon behind a key. -/
  | colon (before : List (Literal × Doc)) (key : Literal) (frames : List Frame)

namespace State

/-- The document that there is if reading stops here. -/
def stop (fault : Fault) : State → Doc
  | value frames => foldUp fault (.broken fault) frames
  | first frames => foldUp fault (.array (.cut fault)) frames
  | after d [] => d
  | after d (.array before :: frames) => foldUp fault (.array (.after (d :: before) (.cut fault))) frames
  | after d (.object before k :: frames) =>
    foldUp fault (.object (.after ((k, d) :: before) (.cut fault))) frames
  | key _ before frames => foldUp fault (.object (.after before (.cut fault))) frames
  | colon before k frames =>
    foldUp fault (.object (.after before (.cons k (.broken fault) (.cut fault)))) frames

/-- A document begins with this token. -/
def begin (frames : List Frame) : Token → Except Fault State
  | .null => .ok (after .null frames)
  | .bool b => .ok (after (.bool b) frames)
  | .numeral n => .ok (after (.numeral n) frames)
  | .literal l => .ok (after (.literal l) frames)
  | .openArray => .ok (first frames)
  | .openObject => .ok (key true [] frames)
  | .openLiteral fault | .broken fault => .error fault
  | .comma | .colon | .closeArray | .closeObject => .error .malformed

/-- A complete document is followed by this token. -/
def follow (d : Doc) : List Frame → Token → Except Fault State
  | .array before :: frames, .comma => .ok (value (.array (d :: before) :: frames))
  | .array before :: frames, .closeArray => .ok (after (.array (.after (d :: before) .closed)) frames)
  | .object before k :: frames, .comma => .ok (key false ((k, d) :: before) frames)
  | .object before k :: frames, .closeObject =>
    .ok (after (.object (.after ((k, d) :: before) .closed)) frames)
  | _, _ => .error .malformed

/-- One token further, or the fault that ends the reading. -/
def next : State → Token → Except Fault State
  | value frames, token => begin frames token
  | first frames, .closeArray => .ok (after (.array .closed) frames)
  | first frames, token => begin (.array [] :: frames) token
  | after d frames, token => follow d frames token
  | key _ before frames, .literal l => .ok (colon before l frames)
  | key _ _ _, .openLiteral fault => .error fault
  | key true before frames, .closeObject => .ok (after (.object (.after before .closed)) frames)
  | key _ _ _, _ => .error .malformed
  | colon before k frames, .colon => .ok (value (.object before k :: frames))
  | colon _ _ _, _ => .error .malformed

end State

/-- Reads the first document, and gives the tokens behind it. -/
def readTokens : State → List Token → Doc × List Token
  | .after d [], rest => (d, rest)
  | state, [] => (state.stop .ended, [])
  | state, token :: rest =>
    match state.next token with
    | .ok state => readTokens state rest
    | .error fault => (state.stop fault, [])

/-- A text as a document, and whether anything follows it. -/
structure Reading where
  doc : Doc
  trailing : Bool

/-- Reads a text. -/
def readDoc (text : List Char) : Reading :=
  let (doc, rest) := readTokens (.value []) (tokens text)
  ⟨doc, !rest.isEmpty⟩

end ClientRoster.Json
