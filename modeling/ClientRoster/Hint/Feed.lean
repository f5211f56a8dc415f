import ClientRoster.Hint.Json
import ClientRoster.Text.Lines

/-!
# `ClientRoster.Hint.Feed` — where hints come from

A feed has a name, a table of hints that hold at the start, and a stream of hints that follow. The table may fail
to come. A feed of lines has no table; its stream holds the hints of its well-formed lines and can be watched once.
-/

namespace ClientRoster

open Text

/-- A feed, as an intake sees it. -/
structure Feed where
  name : String
  /-- The hints that hold at the start, unless the feed fails to deliver them. -/
  initial : Except Failure (List Hint) := .ok []
  /-- The hints that follow. -/
  stream : List Hint := []

/-- The bytes as a text, if they are UTF-8. -/
def textOfBytes? (bytes : Bytes) : Option String := String.fromUTF8? bytes.toByteArray

/-- The hint of a line. Lines that are blank, malformed or not UTF-8 hold none. -/
def Hint.ofBytes? (line : Bytes) : Option Hint :=
  match (textOfBytes? line).map Hint.ofLine with
  | some (.ok hint) => hint
  | _ => none

/-- A feed of lines. Once it is watched, its reader is used up. -/
structure LineFeed where
  name : String
  reader : Option (List Delivery)

namespace LineFeed

/-- A feed over a reader that is still to deliver. -/
def new (name : String) (deliveries : List Delivery) : LineFeed := ⟨name, some deliveries⟩

/-- The hints of some deliveries. -/
def hintsOf (deliveries : List Delivery) : List Hint :=
  (LineReader.lines deliveries).filterMap Hint.ofBytes?

/-- Watches the feed: its hints the first time, and none later. -/
def watch (f : LineFeed) : List Hint × LineFeed :=
  match f.reader with
  | some deliveries => (hintsOf deliveries, { f with reader := none })
  | none => ([], f)

/-- The feed that an intake sees in its next run, and what is left after it. -/
def toFeed (f : LineFeed) : Feed × LineFeed :=
  let (stream, rest) := f.watch
  ({ name := f.name, stream := stream }, rest)

end LineFeed

end ClientRoster
