import ClientRoster.Hint.Feed
import ClientRoster.Proofs.Hint.Text
import ClientRoster.Proofs.Text.Lines

/-!
# `ClientRoster.Proofs.Hint.Transport` — hints that are sent as lines arrive as they were sent

A sender writes each hint as a text and ends it as a line; the bytes reach a feed in deliveries that are cut anywhere.
The text of a hint is one line, for it holds no control character, so the lines that arrive are the texts that were
sent, and each of them is read back as its hint.

## Contents
- `Hint.ofBytes?_bytes`: one line.
- **`lossless_transport`: all lines of a feed**, with what becomes of the persistent source.
-/

namespace ClientRoster

open Json Text

namespace Hint

/-- The bytes of the text of a hint. -/
def bytes (h : Hint) : Bytes := bytesOf h.toDoc.render

theorem plainBytes_bytes (h : Hint) : PlainBytes h.bytes :=
  plainBytes_bytesOf (Doc.noControl_chars h.plain_toDoc)

/-- The line of a hint holds this hint. -/
theorem ofBytes?_bytes {h : Hint} (hsource : h.source? ≠ some .persistent) : ofBytes? h.bytes = some h := by
  rw [ofBytes?, textOfBytes?, bytes, fromUTF8?_bytesOf]
  simp only [Option.map_some, ofLine_render hsource]

end Hint

namespace LineFeed

/-- The bytes that a sender makes of some hints, each with the ending of its line. -/
def wire (sent : List (Hint × LineEnd)) : Bytes := sent.flatMap fun s => s.1.bytes ++ s.2.bytes

theorem hintsOf_wire {sent : List (Hint × LineEnd)} (hsource : ∀ s ∈ sent, s.1.source? ≠ some .persistent)
    {deliveries : List Delivery} (hwire : deliveries.flatMap Delivery.data = wire sent) :
    hintsOf deliveries = sent.map Prod.fst := by
  have hlines : LineReader.lines deliveries = sent.map fun s => s.1.bytes := by
    have hplain : ∀ s ∈ sent.map (fun s => (s.1.bytes, s.2)), PlainBytes s.1 := by
      intro s hs
      obtain ⟨s, -, rfl⟩ := List.mem_map.mp hs
      exact s.1.plainBytes_bytes
    have hsplit := splitLines_flatMap hplain
    rw [List.flatMap_map, List.map_map] at hsplit
    rw [LineReader.lines_deliver, hwire]
    exact hsplit
  rw [hintsOf, hlines]
  -- from here on, only the lines matter, one by one
  clear hwire hlines
  induction sent with
  | nil => rfl
  | cons s sent ih =>
    obtain ⟨hs, hsent⟩ := List.forall_mem_cons.mp hsource
    rw [List.map_cons, List.filterMap_cons, Hint.ofBytes?_bytes hs, List.map_cons]
    exact congrArg (s.1 :: ·) (ih hsent)

/-- **The transport of hints as lines is lossless.** Hints of which none names the persistent source arrive as they were
sent, however their lines were ended and however the bytes were cut into deliveries; the text of each is read back as
the hint. The text of a hint that names the persistent source is refused, and no line at all is read as one. -/
theorem lossless_transport :
    (∀ (name : String) (sent : List (Hint × LineEnd)) (deliveries : List Delivery),
      (∀ s ∈ sent, s.1.source? ≠ some .persistent) → deliveries.flatMap Delivery.data = wire sent →
        ((LineFeed.new name deliveries).watch).1 = sent.map Prod.fst) ∧
    (∀ h : Hint, h.source? ≠ some .persistent → Hint.ofLine h.toDoc.render = .ok (some h)) ∧
    (∀ h : Hint, h.source? = some .persistent → ∃ e, Hint.ofLine h.toDoc.render = .error e) ∧
    (∀ (line : String) (h : Hint), Hint.ofLine line = .ok (some h) → h.source? ≠ some .persistent) := by
  refine ⟨?_, ?_, ?_, ?_⟩
  · intro name sent deliveries hsource hwire
    exact hintsOf_wire hsource hwire
  · intro h hsource
    exact Hint.ofLine_render hsource
  · intro h hsource
    exact Hint.ofLine_persistent hsource
  · intro line h hread
    exact Hint.source?_of_ofLine hread

/-- Two lines with different endings arrive, although a delivery ends in the middle of the accented character and a
later one fails; the end of the persistent source is refused. -/
theorem lossless_transport_two_lines :
    let hosts := Hint.hosts (.v6 ⟨[0, 0, 0, 0, 0, 0, 0, 1], rfl⟩) .arp ["é", "\"\r\n"]
    let remove := Hint.remove (.v4 ⟨10, 0, 0, 1⟩)
    let sent := wire [(hosts, .returnFeed), (remove, .feed)]
    ((LineFeed.new "feed" [.bytes (sent.take 55), .failed, .bytes (sent.drop 55)]).watch).1 = [hosts, remove] ∧
    Hint.ofLine remove.toDoc.render = .ok (some remove) ∧
    ∃ e, Hint.ofLine (Hint.sourceDisabled .persistent).toDoc.render = .error e := by
  intro hosts remove sent
  obtain ⟨harrive, hread, hrefuse, -⟩ := lossless_transport
  refine ⟨harrive "feed" [(hosts, .returnFeed), (remove, .feed)] _ ?_ ?_, hread remove ?_, hrefuse _ rfl⟩
  · simp [hosts, remove, Hint.source?]
  · simp [Delivery.data, sent]
  · simp [remove, Hint.source?]

end LineFeed

end ClientRoster
