import Dialogue.Json.Record
import Dialogue.Selection

/-!
# Actions of a test case

An action says how a line is left. It is a type of its own beside the selections that a player can
make, and is turned into one when the test case is run.
-/
namespace Dialogue

open Json (Tagged Value)

inductive Action where
  | main
  | choice (index : UInt64)
  deriving DecidableEq, Repr

namespace Action

def kind : Action → String
  | .main => "main"
  | .choice _ => "option"

def selection : Action → Selection
  | .main => .main
  | .choice index => .choice index

def tagged : Tagged Action where
  title := "TestAction"
  variants := [
    .unit "main" .main,
    ⟨"option", ⟨"variant TestAction::Option",
      [.needed "index" Json.index fun n _ => .choice n], .choice 0⟩⟩]

def toJson : Action → Value
  | .main => .object [("kind", .text "main")]
  | .choice index => .object [("kind", .text "option"), ("index", .index index)]

end Action

end Dialogue
