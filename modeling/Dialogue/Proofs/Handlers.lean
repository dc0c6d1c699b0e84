import Dialogue.Proofs.BareScripts
import Dialogue.Proofs.Endings
import Dialogue.Proofs.Staleness
import Dialogue.Proofs.Walk

/-!
# What handlers see

An operation that announces anything has left the line that was on show before it announces the
first event, and changes nothing after that. So every handler sees the engine as the operation
leaves it behind, with the whole of the line that has come on show or none at the end.
-/
namespace Dialogue

namespace Playback

variable {α : Type}

/-- The script that plays if an operation announces something. -/
def scriptFor? (p : Playback) : Operation α → Option Script
  | .load s => some s
  | .loadText source => (Script.parse source).toOption
  | _ => p.script?

/-- Where a line stays on show, nothing is announced. -/
theorem leaves_of_mem_turn {p : Playback} {op : Operation α} {m : Moment}
    (h : m ∈ (p.turn op).moments) : p.leaves op := by
  have he := effect_turn p op
  generalize p.turn op = t at he h
  cases he with
  | kept => cases h
  | emptied leaves | started leaves | moved leaves => exact leaves

theorem script?_of_move {p : Playback} {op : Operation α} (hop : op.clears = false) :
    (p.turn op).playback.script? = p.script? := by
  rcases turn_of_not_clears (p := p) hop with ⟨result, ht⟩ | ⟨-, i, message, ht⟩
  · rw [ht]
  · rw [ht, place_script?]

theorem scriptFor?_of_mem_turn {p : Playback} {op : Operation α} {m : Moment}
    (h : m ∈ (p.turn op).moments) : m.seen.script? = p.scriptFor? op := by
  cases op with
  | load s => exact seen_script_of_load h
  | loadText source =>
    rw [turn, loadText] at h
    cases hparse : Script.parse source with
    | error f =>
      rw [hparse] at h
      cases h
    | ok s =>
      rw [hparse] at h
      rw [seen_script_of_load h, scriptFor?, hparse]
      rfl
  | reset => cases h
  | _ =>
    rw [seen_of_mem_turn h]
    exact script?_of_move rfl

/-- Nothing is announced unless there is a script. -/
theorem exists_script_of_mem_turn {p : Playback} (hp : p.Consistent) {op : Operation α} {m : Moment}
    (h : m ∈ (p.turn op).moments) : ∃ s, m.seen.script? = some s := by
  rw [seen_of_mem_turn h]
  have he := effect_turn p op
  generalize p.turn op = t at he h ⊢
  cases he with
  | kept | emptied => cases h
  | @started _ q _ s => exact ⟨s, by rw [place_script?]; rfl⟩
  | moved _ _ accepted =>
    obtain ⟨s, _, hs, _⟩ := line?_of_index? hp (accepts_iff.mp accepted).1
    exact ⟨s, by rw [place_script?, hs]⟩

/-- A line that is entered in a transcript is the line on show. -/
theorem exists_line_of_entry {p : Playback} (hp : p.Consistent) {event : Event}
    {speaker text : String} {choices : List String}
    (h : p.entry event = .line speaker text choices) :
    ∃ i l, p.index? = some i ∧ p.line? i = some l ∧
      Entry.line speaker text choices = .line l.speakerName l.text (l.choices.map (·.text)) := by
  cases event with
  | finished | message => cases h
  | lineUpdate =>
    cases hc : p.current with
    | none =>
      rw [entry, hc] at h
      cases h
    | some shown =>
      obtain ⟨i, l, hi, hl, rfl⟩ := exists_issue_of_current hp hc
      refine ⟨i, l, hi, hl, h.symm.trans ?_⟩
      have hspeaker : p.speaker? = some l.speakerName := by simp [speaker?, hi, hl]
      simp only [entry, hc, hspeaker, texts_issue, Option.getD_some]
      rfl

end Playback

namespace Engine

variable {α : Type}

/-- Inside a handler every query is answered as it is after the operation, and the cursors that a
handler gets hold of are good from then on. -/
theorem handlers_see_what_is_left (id : Nat) (history : List (Operation α)) (op : Operation α)
    {c : Call α} (called : c ∈ (((new id).run history).perform op).calls) :
    let before := ((new id).run history).playback
    let after := (((new id).run history).perform op).engine.playback
    let seen := c.seen.playback
    seen.answers = after.answers ∧ seen.script? = after.script? ∧
      (∃ s, seen.script? = some s ∧ before.scriptFor? op = some s) ∧ seen.Consistent ∧
      (∀ l, seen.current = some l → after.current = some l ∧ ∀ d ∈ l.cursors, after.accepts d) ∧
      (∀ l, before.current = some l →
        seen.current ≠ some l ∧ ∀ d ∈ l.cursors, seen.accepts d = false) ∧
      ∀ speaker text choices, seen.entry c.event = .line speaker text choices →
        ∃ i l, after.index? = some i ∧ after.line? i = some l ∧
          Entry.line speaker text choices =
            .line l.speakerName l.text (l.choices.map (·.text)) := by
  intro before after seen
  have hbefore : before.Consistent := Playback.consistent_run (Playback.consistent_new id) history
  have hseen : seen = after := seen_of_mem_calls called
  have hafter : after = (before.turn op).playback := perform_playback _ op
  have hconsistent : after.Consistent := hafter ▸ Playback.consistent_turn hbefore op
  rw [perform_calls] at called
  obtain ⟨m, hm, hc⟩ := List.mem_flatMap.mp called
  obtain ⟨s, -, -, rfl⟩ := mem_deliver.mp hc
  obtain ⟨script, hscript⟩ := Playback.exists_script_of_mem_turn hbefore hm
  have hplays := Playback.scriptFor?_of_mem_turn hm
  rw [hscript] at hplays
  have hepoch : before.epoch < after.epoch := by
    rw [hafter]
    exact Playback.epoch_lt_turn (Playback.leaves_of_mem_turn hm)
  have hafterscript : after.script? = some script := hseen ▸ hscript
  rw [hseen]
  refine ⟨rfl, rfl, ⟨script, hafterscript, hplays.symm⟩, hconsistent, ?_, ?_, ?_⟩
  · intro l hl
    exact ⟨hl, fun d hd => Playback.accepts_of_mem_current hconsistent hl hd⟩
  · intro l hl
    have hstale : ∀ d ∈ l.cursors, after.accepts d = false := by
      intro d hd
      have hstamp := (Playback.accepts_iff.mp (Playback.accepts_of_mem_current hbefore hl hd)).2
      refine Playback.not_accepts_of_epoch_lt ?_
      rw [hstamp]
      exact hepoch
    refine ⟨fun hsame => ?_, hstale⟩
    have hgood := Playback.accepts_of_mem_current hconsistent hsame List.mem_cons_self
    rw [hstale l.main List.mem_cons_self] at hgood
    cases hgood
  · intro speaker text choices hentry
    exact Playback.exists_line_of_entry hconsistent hentry

/-- A choice that leads to the end: none of the four handlers called sees the line that is left,
whose cursor was good until then. -/
theorem parting_seen_from_handlers :
    let script : Script :=
      { lines := [{ text := "Leave?", choices := [⟨"Yes.", some "end", some "gone"⟩] }]
        ending := ⟨some "bye"⟩ }
    let e := (new 0).run [.subscribe .all ()]
    let loaded := e.perform (.load script)
    let parted := loaded.engine.perform (.choose 0)
    let yes : Cursor := ⟨⟨0, 2⟩, .choice 0, 0, "Yes.", some "end", some "gone"⟩
    (∃ c ∈ loaded.calls, ∃ l, c.seen.playback.current = some l ∧ yes ∈ l.cursors ∧
      loaded.engine.playback.accepts yes) ∧
      parted.calls.map (·.event) = [.lineUpdate, .finished, .message "bye", .message "gone"] ∧
      ∀ c ∈ parted.calls, c.seen.playback.answers = parted.engine.playback.answers ∧
        c.seen.playback.accepts yes = false := by
  intro script e loaded parted yes
  let leave : CurrentLine := ⟨⟨⟨0, 2⟩, .main, 0, "Leave?", none, none⟩, [yes]⟩
  have hyes : yes ∈ leave.cursors := by decide
  refine ⟨?_, rfl, ?_⟩
  · refine ⟨⟨⟨1, .all, ()⟩, .lineUpdate, { loaded.engine with subscribers := [] }⟩,
      List.mem_singleton_self _, leave, rfl, hyes, ?_⟩
    obtain ⟨-, -, -, -, hcaught, -⟩ := handlers_see_what_is_left 0 [.subscribe .all ()]
      (.load script) (List.mem_singleton_self _)
    exact (hcaught leave rfl).2 yes hyes
  · intro c hc
    obtain ⟨hanswers, -, -, -, -, hleft, -⟩ :=
      handlers_see_what_is_left 0 [.subscribe .all (), .load script] (.choose 0) hc
    exact ⟨hanswers, (hleft leave rfl).2 yes hyes⟩

end Engine

end Dialogue
