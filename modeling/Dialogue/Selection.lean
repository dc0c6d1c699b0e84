import Dialogue.Text.Blank
import Dialogue.Text.Index

/-!
# Selections

How a player leaves a line: by its main exit, or by one of its choices. In text a selection is the
word `main`, in any case, or an index; white space around it does not count.
-/
namespace Dialogue

inductive Selection where
  | main
  | choice (index : UInt64)
  deriving DecidableEq, Repr

namespace Selection

def lower (c : Char) : Char := if 'A' ≤ c ∧ c ≤ 'Z' then Char.ofNat (c.toNat + 32) else c

def mainWord : String := "main"

def parse? (s : String) : Option Selection :=
  let t := Text.trim s
  if t.toList.map lower = mainWord.toList then some .main else (Text.index? t).map .choice

def render : Selection → String
  | .main => mainWord
  | .choice index => toString index.toNat

def invalidMessage (s : String) : String :=
  "Invalid selection \"" ++ Text.trim s ++ "\", expected \"main\" or an option index."

end Selection

end Dialogue
