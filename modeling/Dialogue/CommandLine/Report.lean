import Dialogue.CommandLine.Error
import Dialogue.Playthrough

/-!
# Reports of a run

A report has one fact to a line. Texts of a script appear in it only as JSON, which has no line
breaks, so that no text can be taken for a line of the report.
-/
namespace Dialogue.CommandLine

/-- What a run has observed, and whether the script has ended. -/
structure Outcome where
  entries : List Entry
  ended : Bool
  deriving DecidableEq, Repr

def choiceLine (k : Nat) (text : String) : String :=
  "OPTION:" ++ toString k ++ "|" ++ Json.textJson text

def entryLines : Entry → List String
  | .line speaker text choices =>
    ["EVENT:LINE", "SPEAKER_JSON:" ++ Json.textJson speaker, "TEXT_JSON:" ++ Json.textJson text] ++
      choices.mapIdx choiceLine
  | .cleared => ["EVENT:CLEARED"]
  | .finished => ["EVENT:END"]
  | .message text => ["EVENT:MESSAGE", "MESSAGE_JSON:" ++ Json.textJson text]

def stateLine (ended : Bool) : String := if ended then "STATE:ENDED" else "STATE:ACTIVE"

def Outcome.lines (o : Outcome) : List String :=
  "RESULT:OK" :: o.entries.flatMap entryLines ++ [stateLine o.ended]

def CommandError.lines (e : CommandError) : List String :=
  ["RESULT:ERROR", "ERROR_CODE:" ++ e.code, "ERROR_MSG_JSON:" ++ Json.textJson e.message]

/-- Applies the selections, `number` of which have been applied; none may be left when the script
has ended. -/
def applyAll : Nat → Playthrough → List Selection → Except CommandError Outcome
  | _, p, [] => .ok ⟨p.transcript, p.ended⟩
  | number, p, s :: rest =>
    if p.ended then .error (.afterEnd (number + 1) s (rest.length + 1))
    else
      match p.select s with
      | .error e => .error (.engine e)
      | .ok q => applyAll (number + 1) q rest

def runText (source : String) (selections : List Selection) : Except CommandError Outcome :=
  match Playthrough.startText source with
  | .error e => .error (.engine e)
  | .ok p => applyAll 0 p selections

end Dialogue.CommandLine
