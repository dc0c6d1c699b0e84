import Dialogue.Error
import Dialogue.Script
import Dialogue.Table

/-!
# Labels of a script

A table maps every label to its line, and the reserved label to the end, which comes after the last
line. A label may stand for one line only.
-/
namespace Dialogue

abbrev LabelTable := Table String Nat

namespace LabelTable

/-- Adds the labels of the lines from index `i` on. -/
def addLines (t : LabelTable) (i : Nat) : List Line → Except EngineError LabelTable
  | [] => .ok t
  | l :: ls =>
    match l.label? with
    | none => addLines t (i + 1) ls
    | some label =>
      if (t.find? label).isSome then .error (.duplicateLabel label i)
      else addLines (t.insert label i) (i + 1) ls

def ofScript (s : Script) : Except EngineError LabelTable :=
  addLines ⟨[(endLabel, s.lineCount)]⟩ 0 s.lines

end LabelTable

end Dialogue
