import Dialogue.Event
import Dialogue.Json.Record

/-!
# Expectations of a test case

An expectation describes an entry of a transcript. When it is written down, the speaker and the
choices of a line may be left out; what was recorded is turned into expectations to be compared.
-/
namespace Dialogue

open Json (Record Tagged Value)

inductive Expectation where
  | line (speaker text : String) (choices : List String)
  | cleared
  | finished
  | message (text : String)
  deriving DecidableEq, Repr

namespace Expectation

def ofEntry : Entry → Expectation
  | .line speaker text choices => .line speaker text choices
  | .cleared => .cleared
  | .finished => .finished
  | .message text => .message text

def setSpeaker (s : String) : Expectation → Expectation
  | .line _ text choices => .line s text choices
  | x => x

def setText (s : String) : Expectation → Expectation
  | .line speaker _ choices => .line speaker s choices
  | x => x

def setChoices (cs : List String) : Expectation → Expectation
  | .line speaker text _ => .line speaker text cs
  | x => x

def lineRecord : Record Expectation where
  title := "variant ExpectedEvent::Line"
  initial := .line "" "" []
  fields := [
    .withDefault "speaker" Json.text setSpeaker,
    .needed "text" Json.text setText,
    .withDefault "options" (Json.list Json.text) setChoices]

def tagged : Tagged Expectation where
  title := "ExpectedEvent"
  variants := [
    ⟨"line", lineRecord⟩,
    .unit "cleared" .cleared,
    .unit "end" .finished,
    ⟨"message", ⟨"variant ExpectedEvent::Message",
      [.needed "text" Json.text fun s _ => .message s], .message ""⟩⟩]

def toJson : Expectation → Value
  | .line speaker text choices =>
    .object [("kind", .text "line"), ("speaker", .text speaker), ("text", .text text),
      ("options", .list (choices.map .text))]
  | .cleared => .object [("kind", .text "cleared")]
  | .finished => .object [("kind", .text "end")]
  | .message text => .object [("kind", .text "message"), ("text", .text text)]

end Expectation

end Dialogue
