import Dialogue.Json.Record
import Dialogue.Script

/-!
# Scripts as documents

Absent optional fields and an empty list of choices are not written; the ending always is.
-/
namespace Dialogue

open Json (Record Value)

namespace Choice

def record : Record Choice where
  title := "OptionDefinition"
  initial := ⟨"", none, none⟩
  fields := [
    .needed "text" Json.text fun s c => { c with text := s },
    .withDefault "jump" (Json.optional Json.text) fun s c => { c with jump := s },
    .withDefault "message" (Json.optional Json.text) fun s c => { c with message := s }]

def toJson (c : Choice) : Value :=
  .object (("text", .text c.text) :: Value.optional "jump" c.jump ++
    Value.optional "message" c.message)

end Choice

namespace Line

def record : Record Line where
  title := "LineDefinition"
  initial := { text := "" }
  fields := [
    .withDefault "speaker" (Json.optional Json.text) fun s l => { l with speaker := s },
    .withDefault "label" (Json.optional Json.text) fun s l => { l with label := s },
    .withDefault "message" (Json.optional Json.text) fun s l => { l with message := s },
    .needed "text" Json.text fun s l => { l with text := s },
    .withDefault "jump" (Json.optional Json.text) fun s l => { l with jump := s },
    .withDefault "options" (Json.list Choice.record.decoder) fun cs l => { l with choices := cs },
    .withDefault "notes" (Json.optional Json.text) fun s l => { l with notes := s }]

def toJson (l : Line) : Value :=
  .object (Value.optional "speaker" l.speaker ++ Value.optional "label" l.label ++
    Value.optional "message" l.message ++ [("text", .text l.text)] ++
    Value.optional "jump" l.jump ++
    (if l.choices.isEmpty then [] else [("options", .list (l.choices.map Choice.toJson))]) ++
    Value.optional "notes" l.notes)

end Line

namespace Ending

def record : Record Ending where
  title := "EndDefinition"
  initial := ⟨none⟩
  fields := [.withDefault "message" (Json.optional Json.text) fun s _ => ⟨s⟩]

def toJson (e : Ending) : Value := .object (Value.optional "message" e.message)

end Ending

namespace Script

def record : Record Script where
  title := "Conversation"
  initial := { lines := [] }
  fields := [
    .withDefault "metadata" (Json.optional Json.value) fun v s => { s with metadata := v },
    .needed "lines" (Json.list Line.record.decoder) fun ls s => { s with lines := ls },
    .withDefault "end" Ending.record.decoder fun e s => { s with ending := e }]

def metadataJson (s : Script) : List (String × Value) :=
  match s.metadata with
  | none => []
  | some v => [("metadata", v)]

def toJson (s : Script) : Value :=
  .object (s.metadataJson ++
    [("lines", .list (s.lines.map Line.toJson)), ("end", s.ending.toJson)])

def parse (source : String) : Except Json.Fault Script := Json.decode record.decoder source

end Script

end Dialogue
