import Dialogue.Json.Record
import Dialogue.Selection

/-!
# Selections as documents

A selection is tagged `main` or `option`.
-/
namespace Dialogue.Selection

open Json (Tagged Value)

def tagged : Tagged Selection where
  title := "Selection"
  variants := [
    .unit "main" .main,
    ⟨"option", ⟨"variant Selection::Option",
      [.needed "index" Json.index fun n _ => .choice n], .choice 0⟩⟩]

def toJson : Selection → Value
  | .main => .object [("kind", .text "main")]
  | .choice index => .object [("kind", .text "option"), ("index", .index index)]

end Dialogue.Selection
