import Dialogue.Json.Fault

/-!
# Why an engine refuses

Each cause has a code that never changes and a sentence for people.
-/
namespace Dialogue

inductive EngineError where
  | parse (fault : Json.Fault)
  | duplicateLabel (label : String) (line : Nat)
  | unresolvedJump (label : String) (origin : Nat)
  | staleCursor (origin : Nat)
  | notActive
  | choiceOutOfRange (index count : Nat)
  deriving DecidableEq, Repr

namespace EngineError

def code : EngineError → String
  | .parse _ => "ENGINE_PARSE"
  | .duplicateLabel _ _ => "ENGINE_DUPLICATE_LABEL"
  | .unresolvedJump _ _ => "ENGINE_UNRESOLVED_JUMP"
  | .staleCursor _ => "ENGINE_INVALID_CURSOR"
  | .notActive => "ENGINE_NOT_ACTIVE"
  | .choiceOutOfRange _ _ => "ENGINE_OPTION_INDEX"

def message : EngineError → String
  | .parse fault => "Conversation document could not be parsed: " ++ fault.message
  | .duplicateLabel label line =>
    "Label \"" ++ label ++ "\" on line " ++ toString line ++ " is already defined."
  | .unresolvedJump label origin =>
    "Jump target \"" ++ label ++ "\" requested from line " ++ toString origin ++ " does not exist."
  | .staleCursor origin => "Cursor issued for line " ++ toString origin ++ " is no longer active."
  | .notActive => "No conversation is active."
  | .choiceOutOfRange index count =>
    "Option index " ++ toString index ++ " is out of range, line has " ++ toString count ++
      " options."

end EngineError

end Dialogue
