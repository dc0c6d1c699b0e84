import Dialogue.Event.Json
import Dialogue.Proofs.Documents
import Dialogue.Proofs.Forms
import Dialogue.Selection.Json
import Dialogue.TestCase.Basic

/-!
# Documents that are test cases

What the decoders of selections, events, entries and test cases with their parts make of a value, told
from the value alone.
-/
namespace Dialogue

open Json
open Json.Shape.Field (follows_needed follows_withDefault independent_of_commute)

namespace Json.Form

variable {α β : Type}

/-- A form without fields. -/
def unit (tag : String) (x : α) : Form α := ⟨tag, [], x⟩

/-- A form with one field, which must be given. -/
def single (tag name : String) (f : Value → Option β) (set : β → α → α) (initial : α) : Form α :=
  ⟨tag, [.needed name f set], initial⟩

theorem unit_describes (tag : String) (x : α) : (unit tag x).Describes (.unit tag x) :=
  ⟨rfl, rfl, .nil, .nil, .nil⟩

theorem single_describes {d : Decoder β} {f : Value → Option β} (h : Follows d f)
    (tag title name : String) (set : β → α → α) (initial : α) :
    (single tag name f set initial).Describes ⟨tag, ⟨title, [.needed name d set], initial⟩⟩ :=
  ⟨rfl, rfl, .cons (follows_needed h _ _) .nil, List.nodup_singleton _,
    List.pairwise_singleton _ _⟩

end Json.Form

namespace Selection

def forms : List (Form Selection) :=
  [.unit "main" .main, .single "option" "index" Value.index? (fun n _ => .choice n) (.choice 0)]

theorem forms_describe : List.Forall₂ Form.Describes forms tagged.variants :=
  .cons (Form.unit_describes _ _) (.cons (Form.single_describes follows_index _ _ _ _ _) .nil)

end Selection

namespace Action

def forms : List (Form Action) :=
  [.unit "main" .main, .single "option" "index" Value.index? (fun n _ => .choice n) (.choice 0)]

theorem forms_describe : List.Forall₂ Form.Describes forms tagged.variants :=
  .cons (Form.unit_describes _ _) (.cons (Form.single_describes follows_index _ _ _ _ _) .nil)

end Action

namespace Event

def forms : List (Form Event) :=
  [.unit "lineUpdate" .lineUpdate, .unit "end" .finished,
    .single "message" "text" Value.text? (fun s _ => .message s) (.message "")]

theorem forms_describe : List.Forall₂ Form.Describes forms tagged.variants :=
  .cons (Form.unit_describes _ _) <| .cons (Form.unit_describes _ _) <|
    .cons (Form.single_describes follows_text _ _ _ _ _) .nil

end Event

namespace Entry

/-- A line of a transcript has all its fields. -/
def lineShape : Shape Entry where
  fields := [
    .needed "speaker" Value.text? setSpeaker,
    .needed "text" Value.text? setText,
    .needed "options" (Value.list? Value.text?) setChoices]
  initial := .line "" "" []

theorem lineShape_describes : lineShape.Describes lineRecord where
  initial := rfl
  fields := .cons (follows_needed follows_text _ _) <| .cons (follows_needed follows_text _ _) <|
    .cons (follows_needed (follows_list follows_text) _ _) .nil
  distinct := by decide
  independent := by
    simp only [lineShape, List.pairwise_cons, List.forall_mem_cons, List.not_mem_nil, false_imp_iff,
      implies_true, List.Pairwise.nil, and_true]
    and_intros <;> exact independent_of_commute fun _ _ e => by cases e <;> rfl

def forms : List (Form Entry) :=
  [⟨"line", lineShape⟩, .unit "cleared" .cleared, .unit "end" .finished,
    .single "message" "text" Value.text? (fun s _ => .message s) (.message "")]

theorem forms_describe : List.Forall₂ Form.Describes forms tagged.variants :=
  .cons ⟨rfl, lineShape_describes⟩ <| .cons (Form.unit_describes _ _) <|
    .cons (Form.unit_describes _ _) <| .cons (Form.single_describes follows_text _ _ _ _ _) .nil

end Entry

namespace Expectation

/-- A line that is expected has its text. -/
def lineShape : Shape Expectation where
  fields := [
    .withDefault "speaker" Value.text? setSpeaker,
    .needed "text" Value.text? setText,
    .withDefault "options" (Value.list? Value.text?) setChoices]
  initial := .line "" "" []

theorem lineShape_describes : lineShape.Describes lineRecord where
  initial := rfl
  fields := .cons (follows_withDefault follows_text _ _) <|
    .cons (follows_needed follows_text _ _) <|
    .cons (follows_withDefault (follows_list follows_text) _ _) .nil
  distinct := by decide
  independent := by
    simp only [lineShape, List.pairwise_cons, List.forall_mem_cons, List.not_mem_nil, false_imp_iff,
      implies_true, List.Pairwise.nil, and_true]
    and_intros <;> exact independent_of_commute fun _ _ x => by cases x <;> rfl

def forms : List (Form Expectation) :=
  [⟨"line", lineShape⟩, .unit "cleared" .cleared, .unit "end" .finished,
    .single "message" "text" Value.text? (fun s _ => .message s) (.message "")]

theorem forms_describe : List.Forall₂ Form.Describes forms tagged.variants :=
  .cons ⟨rfl, lineShape_describes⟩ <| .cons (Form.unit_describes _ _) <|
    .cons (Form.unit_describes _ _) <| .cons (Form.single_describes follows_text _ _ _ _ _) .nil

end Expectation

namespace TestCase

def shape : Shape TestCase where
  fields := [
    .needed "schemaVersion" Value.text? fun s c => { c with schema := s },
    .withDefault "actions" (Value.list? (Form.read? Action.forms)) fun a c =>
      { c with actions := a },
    .withDefault "expectedEvents" (Value.list? (Form.read? Expectation.forms)) fun xs c =>
      { c with expected := xs }]
  initial := { schema := "" }

theorem shape_describes : shape.Describes record where
  initial := rfl
  fields := .cons (follows_needed follows_text _ _) <|
    .cons (follows_withDefault
      (follows_list (Form.follows_decoder Action.forms_describe)) _ _) <|
    .cons (follows_withDefault
      (follows_list (Form.follows_decoder Expectation.forms_describe)) _ _) .nil
  distinct := by decide
  independent := by
    simp only [shape, List.pairwise_cons, List.forall_mem_cons, List.not_mem_nil, false_imp_iff,
      implies_true, List.Pairwise.nil, and_true]
    and_intros <;> exact independent_of_commute fun _ _ _ => rfl

end TestCase

end Dialogue
