import Dialogue.Event.Json
import Dialogue.Proofs.Relaxation
import Dialogue.Selection.Json
import Dialogue.TestCase.Action
import Dialogue.TestCase.Expectation

/-!
# Actions as selections, entries as expectations

The conversions lose nothing, and the formats on both sides of them go together.
-/
namespace Dialogue

open Json (Tagged Variant)
open Json.Record (Field.needed_relaxes Field.withDefault_relaxes)

namespace Action

def ofSelection : Selection → Action
  | .main => .main
  | .choice index => .choice index

theorem selection_ofSelection (s : Selection) : (ofSelection s).selection = s := by
  cases s <;> rfl

theorem ofSelection_selection (a : Action) : ofSelection a.selection = a := by
  cases a <;> rfl

theorem toJson_selection (a : Action) : a.selection.toJson = a.toJson := by
  cases a <;> rfl

theorem selection_relaxes : Selection.tagged.Relaxes selection tagged :=
  .cons (Variant.unit_relaxes selection "main" .main) <|
    .cons ⟨rfl, rfl, .cons (Field.needed_relaxes fun _ _ => rfl) .nil⟩ .nil

theorem ofSelection_relaxes : tagged.Relaxes ofSelection Selection.tagged :=
  .cons (Variant.unit_relaxes ofSelection "main" .main) <|
    .cons ⟨rfl, rfl, .cons (Field.needed_relaxes fun _ _ => rfl) .nil⟩ .nil

end Action

namespace Expectation

theorem ofEntry_injective : Function.Injective ofEntry := by
  intro e f h
  cases e <;> cases f <;> simp_all [ofEntry]

theorem exists_ofEntry (x : Expectation) : ∃ e, ofEntry e = x := by
  cases x with
  | line speaker text choices => exact ⟨.line speaker text choices, rfl⟩
  | cleared => exact ⟨.cleared, rfl⟩
  | finished => exact ⟨.finished, rfl⟩
  | message text => exact ⟨.message text, rfl⟩

theorem toJson_ofEntry (e : Entry) : (ofEntry e).toJson = e.toJson := by
  cases e <;> rfl

/-- A line that was recorded has more fields than an expectation needs. -/
theorem ofEntry_relaxes : tagged.Relaxes ofEntry Entry.tagged := by
  have hspeaker : ∀ s e, setSpeaker s (ofEntry e) = ofEntry (e.setSpeaker s) := by
    intro s e
    cases e <;> rfl
  have htext : ∀ s e, setText s (ofEntry e) = ofEntry (e.setText s) := by
    intro s e
    cases e <;> rfl
  have hchoices : ∀ cs e, setChoices cs (ofEntry e) = ofEntry (e.setChoices cs) := by
    intro cs e
    cases e <;> rfl
  have hline : lineRecord.Relaxes ofEntry Entry.lineRecord :=
    ⟨rfl, .cons (Field.withDefault_relaxes hspeaker) <|
      .cons (Field.needed_relaxes htext) <|
      .cons (Field.withDefault_relaxes hchoices) .nil⟩
  exact .cons ⟨rfl, hline⟩ <| .cons (Variant.unit_relaxes ofEntry "cleared" .cleared) <|
    .cons (Variant.unit_relaxes ofEntry "end" .finished) <|
    .cons ⟨rfl, rfl, .cons (Field.needed_relaxes fun _ _ => rfl) .nil⟩ .nil

end Expectation

end Dialogue
