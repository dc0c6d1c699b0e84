import Dialogue.Proofs.Labels
import Dialogue.Proofs.Run

/-!
# Consistent playbacks

A playback says some things twice: the line on show by its index and by its cursors, the script by
its lines and by its table of labels. No operation brings these out of step, whatever came before
and whether or not it goes through.
-/
namespace Dialogue.Playback

/-- The line on show is a line of the script and has one fresh cursor for each way out; without a
line there are no cursors, and without a script there are neither labels nor a line. -/
structure Consistent (p : Playback) : Prop where
  shown : ∀ i, p.index? = some i → ∃ s l, p.script? = some s ∧ s.line? i = some l ∧
    p.main? = some ⟨p.stamp, .main, i, l.text, l.jump?, none⟩ ∧
    p.choices =
      l.choices.mapIdx fun k c => ⟨p.stamp, .choice k, i, c.text, c.jump?, c.message?⟩
  hidden : p.index? = none → p.main? = none ∧ p.choices = []
  labelled : ∀ s, p.script? = some s → p.labels.Describes s
  unloaded : p.script? = none → p.labels = {} ∧ p.index? = none

theorem consistent_new (id : Nat) : (new id).Consistent where
  shown _ h := by cases h
  hidden _ := ⟨rfl, rfl⟩
  labelled _ h := by cases h
  unloaded _ := ⟨rfl, rfl⟩

theorem consistent_reset (p : Playback) : p.reset.Consistent where
  shown _ h := by cases h
  hidden _ := ⟨rfl, rfl⟩
  labelled _ h := by cases h
  unloaded _ := ⟨rfl, rfl⟩

/-- Coming to a line, or to the end, needs nothing of the state before but its labels. -/
theorem consistent_place {p : Playback} {s : Script} (hs : p.script? = some s)
    (hl : p.labels.Describes s) (i : Nat) : (p.place i).Consistent := by
  have labelled : ∀ t, (p.place i).script? = some t → (p.place i).labels.Describes t := by
    intro t ht
    rw [place_script?, hs] at ht
    rw [place_labels]
    exact Option.some.inj ht ▸ hl
  have unloaded : (p.place i).script? = none →
      (p.place i).labels = {} ∧ (p.place i).index? = none := by
    intro h
    rw [place_script?, hs] at h
    cases h
  cases h : p.line? i with
  | none =>
    refine ⟨?_, ?_, labelled, unloaded⟩
    · intro j hj
      simp [place_of_none h] at hj
    · intro _
      simp [place_of_none h, invalidate]
  | some l =>
    refine ⟨?_, ?_, labelled, unloaded⟩
    · intro j hj
      rw [index?_place_of_some h] at hj
      cases hj
      have hline : s.line? i = some l := by simpa [line?, hs] using h
      refine ⟨s, l, by rw [place_script?, hs], hline, ?_, ?_⟩
      · simp [place_of_some h, issue, stamp, invalidate]
      · simp [place_of_some h, issue, stamp, invalidate]
    · intro hn
      rw [index?_place_of_some h] at hn
      cases hn

theorem current_eq_issue {p : Playback} (hp : p.Consistent) :
    p.current = p.index?.bind fun i => (p.line? i).map (p.issue i) := by
  cases hi : p.index? with
  | none => simp [current, hi]
  | some i =>
    obtain ⟨s, l, hs, hl, hmain, hchoices⟩ := hp.shown i hi
    have hline : p.line? i = some l := by simpa [line?, hs] using hl
    simp [current, hi, hmain, hchoices, hline, issue]

theorem exists_issue_of_current {p : Playback} (hp : p.Consistent) {l : CurrentLine}
    (h : p.current = some l) :
    ∃ i m, p.index? = some i ∧ p.line? i = some m ∧ l = p.issue i m := by
  rw [current_eq_issue hp] at h
  obtain ⟨i, hi, h⟩ := Option.bind_eq_some_iff.mp h
  obtain ⟨m, hm, rfl⟩ := Option.map_eq_some_iff.mp h
  exact ⟨i, m, hi, hm, rfl⟩

theorem line?_of_index? {p : Playback} (hp : p.Consistent) {i : Nat} (h : p.index? = some i) :
    ∃ s m, p.script? = some s ∧ s.line? i = some m ∧ p.line? i = some m := by
  obtain ⟨s, m, hs, hm, _⟩ := hp.shown i h
  exact ⟨s, m, hs, hm, by simpa [line?, hs] using hm⟩

theorem active_eq_isSome_current {p : Playback} (hp : p.Consistent) :
    p.active = p.current.isSome := by
  cases hi : p.index? with
  | none => simp [active, current, hi]
  | some i =>
    obtain ⟨_, m, _, _, hm⟩ := line?_of_index? hp hi
    simp [active, current_eq_issue hp, hi, hm]

theorem active_eq_isSome_speaker? {p : Playback} (hp : p.Consistent) :
    p.active = p.speaker?.isSome := by
  cases hi : p.index? with
  | none => simp [active, speaker?, hi]
  | some i =>
    obtain ⟨_, m, _, _, hm⟩ := line?_of_index? hp hi
    simp [active, speaker?, hi, hm]

theorem active_iff_lt {p : Playback} (hp : p.Consistent) :
    p.active ↔ ∃ i, p.index? = some i ∧ i < p.lineCount := by
  constructor
  · intro h
    obtain ⟨i, hi⟩ := Option.isSome_iff_exists.mp h
    obtain ⟨s, m, hs, hm, _⟩ := line?_of_index? hp hi
    have hlt : i < s.lines.length := (List.getElem?_eq_some_iff.mp hm).1
    exact ⟨i, hi, by simpa [lineCount, hs, Script.lineCount] using hlt⟩
  · rintro ⟨i, hi, _⟩
    simp [active, hi]

theorem mem_issue {p : Playback} {i : Nat} {l : Line} {c : Cursor}
    (h : c ∈ (p.issue i l).cursors) : c.origin = i ∧ c.stamp = p.stamp := by
  rcases List.mem_cons.mp h with rfl | h
  · exact ⟨rfl, rfl⟩
  · obtain ⟨k, hk, rfl⟩ := List.mem_mapIdx.mp h
    exact ⟨rfl, rfl⟩

theorem accepts_iff {p : Playback} {c : Cursor} :
    p.accepts c ↔ p.index? = some c.origin ∧ c.stamp = p.stamp := by
  simp [accepts]

theorem accepts_of_mem_current {p : Playback} (hp : p.Consistent) {l : CurrentLine}
    (hl : p.current = some l) {c : Cursor} (hc : c ∈ l.cursors) : p.accepts c := by
  obtain ⟨i, m, hi, _, rfl⟩ := exists_issue_of_current hp hl
  obtain ⟨horigin, hstamp⟩ := mem_issue hc
  exact accepts_iff.mpr ⟨by rw [hi, horigin], hstamp⟩

variable {α : Type}

theorem consistent_turn {p : Playback} (hp : p.Consistent) (op : Operation α) :
    (p.turn op).playback.Consistent := by
  have he := effect_turn p op
  generalize p.turn op = t at he ⊢
  cases he with
  | kept => exact hp
  | emptied => exact consistent_reset _
  | started _ _ labelled =>
    exact consistent_place rfl (LabelTable.ofScript_describes labelled) 0
  | moved _ _ accepted =>
    obtain ⟨s, _, hs, _⟩ := line?_of_index? hp (accepts_iff.mp accepted).1
    exact consistent_place hs (hp.labelled s hs) _

theorem consistent_run {e : Engine α} (h : e.playback.Consistent) (ops : List (Operation α)) :
    (e.run ops).playback.Consistent := by
  refine Engine.run_preserves (P := fun f => f.playback.Consistent) ?_ h ops
  intro f op hf
  rw [Engine.perform_playback]
  exact consistent_turn hf op

@[simp] theorem turn_id (p : Playback) (op : Operation α) : (p.turn op).playback.id = p.id := by
  have he := effect_turn p op
  generalize p.turn op = t at he ⊢
  cases he with
  | kept => rfl
  | emptied _ start => rcases start with rfl | rfl <;> rfl
  | started _ start => rw [place_id]; rcases start with rfl | rfl <;> rfl
  | moved => exact place_id _ _

theorem run_id (e : Engine α) (ops : List (Operation α)) :
    (e.run ops).playback.id = e.playback.id := by
  refine Engine.run_preserves (P := fun f => f.playback.id = e.playback.id) ?_ rfl ops
  intro f op hf
  rw [Engine.perform_playback, turn_id, hf]

/-- Whatever has been asked of an engine, the line on show, its cursors and the labels are those
the script asks for, and all queries tell the same. -/
theorem fields_agree_on_run (id : Nat) (ops : List (Operation α)) :
    let p := ((Engine.new id).run ops).playback
    p.Consistent ∧ p.id = id ∧
      p.current = p.index?.bind (fun i => (p.line? i).map (p.issue i)) ∧
      p.active = p.current.isSome ∧ p.active = p.speaker?.isSome ∧
      (p.active ↔ ∃ i, p.index? = some i ∧ i < p.lineCount) ∧
      ∀ l, p.current = some l → ∀ c ∈ l.cursors, p.accepts c := by
  intro p
  have hp : p.Consistent := consistent_run (consistent_new id) ops
  exact ⟨hp, run_id _ ops, current_eq_issue hp, active_eq_isSome_current hp,
    active_eq_isSome_speaker? hp, active_iff_lt hp,
    fun _ hl _ hc => accepts_of_mem_current hp hl hc⟩

end Dialogue.Playback
