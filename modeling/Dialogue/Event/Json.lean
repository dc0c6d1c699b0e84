import Dialogue.Event
import Dialogue.Json.Record

/-!
# Events and entries as documents

Both are tagged, and an entry that was recorded has all its fields.
-/
namespace Dialogue

open Json (Record Tagged Value)

namespace Event

def tagged : Tagged Event where
  title := "EngineEvent"
  variants := [
    .unit "lineUpdate" .lineUpdate,
    .unit "end" .finished,
    ⟨"message", ⟨"variant EngineEvent::Message",
      [.needed "text" Json.text fun s _ => .message s], .message ""⟩⟩]

def toJson : Event → Value
  | .lineUpdate => .object [("kind", .text "lineUpdate")]
  | .finished => .object [("kind", .text "end")]
  | .message text => .object [("kind", .text "message"), ("text", .text text)]

end Event

namespace Entry

def setSpeaker (s : String) : Entry → Entry
  | .line _ text choices => .line s text choices
  | e => e

def setText (s : String) : Entry → Entry
  | .line speaker _ choices => .line speaker s choices
  | e => e

def setChoices (cs : List String) : Entry → Entry
  | .line speaker text _ => .line speaker text cs
  | e => e

def lineRecord : Record Entry where
  title := "variant TranscriptEntry::Line"
  initial := .line "" "" []
  fields := [
    .needed "speaker" Json.text setSpeaker,
    .needed "text" Json.text setText,
    .needed "options" (Json.list Json.text) setChoices]

def tagged : Tagged Entry where
  title := "TranscriptEntry"
  variants := [
    ⟨"line", lineRecord⟩,
    .unit "cleared" .cleared,
    .unit "end" .finished,
    ⟨"message", ⟨"variant TranscriptEntry::Message",
      [.needed "text" Json.text fun s _ => .message s], .message ""⟩⟩]

def toJson : Entry → Value
  | .line speaker text choices =>
    .object [("kind", .text "line"), ("speaker", .text speaker), ("text", .text text),
      ("options", .list (choices.map .text))]
  | .cleared => .object [("kind", .text "cleared")]
  | .finished => .object [("kind", .text "end")]
  | .message text => .object [("kind", .text "message"), ("text", .text text)]

end Entry

end Dialogue
