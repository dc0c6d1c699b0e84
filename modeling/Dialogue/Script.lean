import Dialogue.Json.Value
import Dialogue.Text.Blank

/-!
# Scripts

A script is a list of lines and an ending. A line is spoken, may branch into choices, and may name
where to go on: by the label of a line, or by the reserved label of the end. Blank labels, jumps and
messages count as absent.
-/
namespace Dialogue

structure Choice where
  text : String
  jump : Option String := none
  message : Option String := none
  deriving DecidableEq, Repr

structure Line where
  text : String
  speaker : Option String := none
  label : Option String := none
  message : Option String := none
  jump : Option String := none
  choices : List Choice := []
  notes : Option String := none
  deriving DecidableEq, Repr

structure Ending where
  message : Option String := none
  deriving DecidableEq, Repr

structure Script where
  lines : List Line
  ending : Ending := {}
  metadata : Option Json.Value := none
  deriving Repr

/-- The label that stands for the end of every script. -/
def endLabel : String := "end"

namespace Choice

def jump? (c : Choice) : Option String := Text.present? c.jump
def message? (c : Choice) : Option String := Text.present? c.message

end Choice

namespace Line

def label? (l : Line) : Option String := Text.present? l.label
def jump? (l : Line) : Option String := Text.present? l.jump
def message? (l : Line) : Option String := Text.present? l.message
def speakerName (l : Line) : String := l.speaker.getD ""
def branches (l : Line) : Bool := !l.choices.isEmpty

end Line

namespace Script

def line? (s : Script) (i : Nat) : Option Line := s.lines[i]?
def endMessage? (s : Script) : Option String := Text.present? s.ending.message
def lineCount (s : Script) : Nat := s.lines.length

theorem line?_eq_none_iff {s : Script} {i : Nat} : s.line? i = none ↔ s.lineCount ≤ i := by
  simp [line?, lineCount]

end Script

end Dialogue
