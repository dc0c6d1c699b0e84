import Dialogue.Error
import Dialogue.Files.Lookup
import Dialogue.TestCase.Action
import Dialogue.TestCase.Expectation

/-!
# Test cases

A test case is a document of its own: the actions that play a script to its end, and what is expected
of the transcript. It is read only if it declares the one known schema.
-/
namespace Dialogue

open Json (Record Value)

structure TestCase where
  schema : String
  actions : List Action := []
  expected : List Expectation := []
  deriving DecidableEq, Repr

/-- Everything that can go wrong with a test case. -/
inductive CaseError where
  | unreadable (path : String) (cause : Files.ReadError)
  | badCase (path : String) (fault : Json.Fault)
  | badSchema (found : String)
  | noScript (directory : String)
  | severalScripts (directory : String) (count : Nat)
  | engine (cause : EngineError)
  | missingAction (event line : Nat)
  | unusedActions (used total : Nat)
  | countMismatch (expected : Nat) (observed : List Expectation)
  | mismatch (index : Nat) (expected actual : Expectation)
  deriving DecidableEq, Repr

namespace TestCase

def knownSchema : String := "cv-tool-case.v1"

def record : Record TestCase where
  title := "TestCase"
  initial := { schema := "" }
  fields := [
    .needed "schemaVersion" Json.text fun s c => { c with schema := s },
    .withDefault "actions" (Json.list Action.tagged.decoder) fun a c => { c with actions := a },
    .withDefault "expectedEvents" (Json.list Expectation.tagged.decoder) fun xs c =>
      { c with expected := xs }]

def toJson (c : TestCase) : Value :=
  .object [("schemaVersion", .text c.schema), ("actions", .list (c.actions.map Action.toJson)),
    ("expectedEvents", .list (c.expected.map Expectation.toJson))]

def parse (source : String) : Except Json.Fault TestCase := Json.decode record.decoder source

def expectationsJson (xs : List Expectation) : Value := .list (xs.map Expectation.toJson)

def read (d : Files.Disk) (path : String) : Except CaseError TestCase :=
  match d.read path with
  | .error e => .error (.unreadable path e)
  | .ok source =>
    match parse source with
    | .error f => .error (.badCase path f)
    | .ok c => if c.schema = knownSchema then .ok c else .error (.badSchema c.schema)

theorem schema_of_read {d : Files.Disk} {path : String} {c : TestCase} (h : read d path = .ok c) :
    c.schema = knownSchema := by
  unfold read at h
  repeat' split at h
  all_goals cases h
  assumption

end TestCase

namespace CaseError

def kind : CaseError → String
  | .unreadable _ _ => "ReadFile"
  | .badCase _ _ => "ParseCase"
  | .badSchema _ => "InvalidSchemaVersion"
  | .noScript _ => "SourceEmpty"
  | .severalScripts _ _ => "SourceAmbiguous"
  | .engine _ => "Engine"
  | .missingAction _ _ => "MissingAction"
  | .unusedActions _ _ => "UnusedActions"
  | .countMismatch _ _ => "EventCountMismatch"
  | .mismatch _ _ _ => "EventMismatch"

def message : CaseError → String
  | .unreadable path cause => "Failed to read file " ++ path ++ ": " ++ cause.message
  | .badCase path fault => "Failed to parse testcase " ++ path ++ ": " ++ fault.message
  | .badSchema found =>
    "Invalid testcase schema version \"" ++ found ++ "\", expected \"" ++
      TestCase.knownSchema ++ "\"."
  | .noScript directory => "No " ++ Files.scriptSuffix ++ " file under " ++ directory ++ "."
  | .severalScripts directory count =>
    "Expected one " ++ Files.scriptSuffix ++ " file under " ++ directory ++ ", found " ++
      toString count ++ "."
  | .engine cause => "Engine error: " ++ cause.message
  | .missingAction event line =>
    "Action missing at line " ++ toString line ++ " (event index " ++ toString event ++ ")."
  | .unusedActions used total =>
    "Unused actions: used " ++ toString used ++ " of " ++ toString total ++ "."
  | .countMismatch expected observed =>
    "Expected event count " ++ toString expected ++ ", actual " ++ toString observed.length ++
      ". observed=" ++ (TestCase.expectationsJson observed).pretty
  | .mismatch index expected actual =>
    "Event mismatch at index " ++ toString index ++ ". expected=" ++ expected.toJson.compact ++
      " actual=" ++ actual.toJson.compact

end CaseError

end Dialogue
