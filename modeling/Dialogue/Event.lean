/-!
# Events and transcript entries

An engine announces that the line on show has changed, that the script is over, and messages. A
transcript records what the player got to see: the line itself, or that it was cleared away.
-/
namespace Dialogue

inductive Event where
  | lineUpdate
  | finished
  | message (text : String)
  deriving DecidableEq, Repr

inductive Entry where
  | line (speaker text : String) (choices : List String)
  | cleared
  | finished
  | message (text : String)
  deriving DecidableEq, Repr

namespace Event

def kind : Event → String
  | .lineUpdate => "lineUpdate"
  | .finished => "end"
  | .message _ => "message"

end Event

namespace Entry

def kind : Entry → String
  | .line _ _ _ => "line"
  | .cleared => "cleared"
  | .finished => "end"
  | .message _ => "message"

end Entry

end Dialogue
