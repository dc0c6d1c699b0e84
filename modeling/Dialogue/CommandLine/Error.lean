import Dialogue.Error
import Dialogue.Files.Lookup
import Dialogue.Selection
import Dialogue.Json.Value

/-!
# What the command line reports

A command that fails prints a code and a sentence, in a form that other programs can read.
-/
namespace Dialogue.CommandLine

inductive CommandError where
  | notFound (path : String)
  | noScript (directory : String)
  | severalScripts (directory : String) (count : Nat)
  | unreadable (cause : Files.ReadError)
  | engine (cause : EngineError)
  | afterEnd (number : Nat) (selection : Selection) (unused : Nat)
  | input (cause : Files.ReadError)
  deriving DecidableEq, Repr

namespace CommandError

def code : CommandError → String
  | .notFound _ => "CLI_SOURCE_NOT_FOUND"
  | .noScript _ => "CLI_SOURCE_EMPTY"
  | .severalScripts _ _ => "CLI_SOURCE_AMBIGUOUS"
  | .unreadable _ => "CLI_SOURCE_READ"
  | .engine cause => cause.code
  | .afterEnd _ _ _ => "CLI_SELECTION_AFTER_END"
  | .input _ => "PLAY_IO"

def message : CommandError → String
  | .notFound path => "conversation does not exist: " ++ path
  | .noScript directory => "No " ++ Files.scriptSuffix ++ " file under " ++ directory
  | .severalScripts directory count =>
    "Expected one " ++ Files.scriptSuffix ++ " file under " ++ directory ++ ", found " ++
      toString count
  | .unreadable cause => cause.message
  | .engine cause => cause.message
  | .afterEnd number selection unused =>
    "Selection #" ++ toString number ++ " (\"" ++ selection.render ++
      "\") given after the conversation ended; " ++ toString unused ++ " left unused."
  | .input cause => cause.message

end CommandError

end Dialogue.CommandLine
