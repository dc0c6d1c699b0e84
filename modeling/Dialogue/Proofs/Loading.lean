import Mathlib.Data.Nat.Find
import Mathlib.Order.Bounds.Defs
import Dialogue.Proofs.Consistency

/-!
# Which scripts are loaded

A script is loaded unless a label stands for two things: two lines bear it, or it is the reserved
one and a line bears it. The first line at which this shows is the one that is complained about, and
nothing of such a script is kept.
-/
namespace Dialogue

/-- Line `j` bears a label that is already spoken for: the reserved one, or that of a line before. -/
def Script.Clashes (s : Script) (j : Nat) : Prop :=
  ∃ l label, s.line? j = some l ∧ l.label? = some label ∧
    (label = endLabel ∨ ∃ i < j, ∃ m, s.line? i = some m ∧ m.label? = some label)

theorem Script.exists_first_clash {s : Script} {j : Nat} (h : s.Clashes j) :
    ∃ i, IsLeast {i | s.Clashes i} i := by
  classical
  have hex : ∃ i, s.Clashes i := ⟨j, h⟩
  exact ⟨Nat.find hex, Nat.find_spec hex, fun _ hi => Nat.find_min' hex hi⟩

namespace LabelTable

/-- The same of the lines that are still to be added to a table. -/
def Clash (t : LabelTable) (ls : List Line) (k : Nat) : Prop :=
  ∃ l label, ls[k]? = some l ∧ l.label? = some label ∧
    ((t.find? label).isSome ∨ ∃ i < k, ∃ m, ls[i]? = some m ∧ m.label? = some label)

theorem clash_zero {t : LabelTable} {m : Line} {ls : List Line} :
    Clash t (m :: ls) 0 ↔ ∃ label, m.label? = some label ∧ (t.find? label).isSome := by
  simp [Clash]

/-- The label of the first line moves from the lines into the table. -/
theorem clash_succ {t u : LabelTable} {m : Line}
    (h : ∀ label, (u.find? label).isSome ↔ (t.find? label).isSome ∨ m.label? = some label)
    {ls : List Line} {k : Nat} : Clash t (m :: ls) (k + 1) ↔ Clash u ls k := by
  have earlier : ∀ label, (∃ i < k + 1, ∃ l, (m :: ls)[i]? = some l ∧ l.label? = some label) ↔
      m.label? = some label ∨ ∃ i < k, ∃ l, ls[i]? = some l ∧ l.label? = some label := by
    intro label
    constructor
    · rintro ⟨_ | i, hi, l, hl, hlabel⟩
      · exact .inl (by rw [Option.some.inj hl, hlabel])
      · exact .inr ⟨i, by omega, l, hl, hlabel⟩
    · rintro (hlabel | ⟨i, hi, l, hl, hlabel⟩)
      · exact ⟨0, by omega, m, rfl, hlabel⟩
      · exact ⟨i + 1, by omega, l, hl, hlabel⟩
  simp only [Clash, List.getElem?_cons_succ, earlier, h, or_assoc]

theorem isSome_find?_insert {t : LabelTable} {m : Line} {taken : String} {i : Nat}
    (hm : m.label? = some taken) (label : String) :
    ((t.insert taken i).find? label).isSome ↔
      (t.find? label).isSome ∨ m.label? = some label := by
  rw [Table.find?_insert, hm]
  by_cases h : label = taken
  · simp [h]
  · simp [h, Ne.symm h]

/-- What adding the first line comes to: it clashes, or the rest is added to a table that knows its
label. -/
theorem addLines_cons (t : LabelTable) (i : Nat) (m : Line) (ls : List Line) :
    (∃ label, m.label? = some label ∧ (t.find? label).isSome ∧
      addLines t i (m :: ls) = .error (.duplicateLabel label i)) ∨
    ∃ u : LabelTable, addLines t i (m :: ls) = addLines u (i + 1) ls ∧
      ¬ Clash t (m :: ls) 0 ∧ ∀ k, Clash t (m :: ls) (k + 1) ↔ Clash u ls k := by
  rw [clash_zero]
  cases hm : m.label? with
  | none =>
    refine .inr ⟨t, by simp [addLines, hm], by simp, fun k => clash_succ fun label => ?_⟩
    simp [hm]
  | some taken =>
    cases hf : (t.find? taken).isSome with
    | true => exact .inl ⟨taken, rfl, hf, by simp [addLines, hm, hf]⟩
    | false =>
      refine .inr ⟨t.insert taken i, by simp [addLines, hm, hf], by simp [hf], fun k => ?_⟩
      exact clash_succ (isSome_find?_insert hm)

/-- The first clash is the one that is complained about. -/
theorem addLines_of_clash {t : LabelTable} {i k : Nat} {ls : List Line} (h : Clash t ls k)
    (first : ∀ j < k, ¬ Clash t ls j) :
    ∃ l label, ls[k]? = some l ∧ l.label? = some label ∧
      addLines t i ls = .error (.duplicateLabel label (i + k)) := by
  induction ls generalizing t i k with
  | nil =>
    obtain ⟨l, _, hl, _⟩ := h
    cases hl
  | cons m ls ih =>
    rcases addLines_cons t i m ls with ⟨label, hm, hf, ha⟩ | ⟨u, ha, hfirst, hrest⟩
    · cases k with
      | zero => exact ⟨m, label, rfl, hm, ha⟩
      | succ k => exact absurd (clash_zero.mpr ⟨label, hm, hf⟩) (first 0 k.succ_pos)
    · cases k with
      | zero => exact absurd h hfirst
      | succ k =>
        obtain ⟨l, label, hl, hlabel, herror⟩ :=
          ih (i := i + 1) ((hrest k).mp h) fun j hj hc => first (j + 1) (by omega) ((hrest j).mpr hc)
        refine ⟨l, label, hl, hlabel, ?_⟩
        rw [ha, herror, Nat.add_right_comm, Nat.add_assoc]

/-- Without a clash, all labels are entered. -/
theorem addLines_of_not_clash {t : LabelTable} {i : Nat} {ls : List Line}
    (h : ∀ k, ¬ Clash t ls k) : ∃ u, addLines t i ls = .ok u := by
  induction ls generalizing t i with
  | nil => exact ⟨t, rfl⟩
  | cons m ls ih =>
    rcases addLines_cons t i m ls with ⟨label, hm, hf, _⟩ | ⟨u, ha, _, hrest⟩
    · exact absurd (clash_zero.mpr ⟨label, hm, hf⟩) (h 0)
    · rw [ha]
      exact ih fun k hc => h (k + 1) ((hrest k).mpr hc)

/-- At first the table knows the reserved label and nothing else. -/
theorem clash_start {s : Script} {j : Nat} :
    Clash ⟨[(endLabel, s.lineCount)]⟩ s.lines j ↔ s.Clashes j := by
  have hend : ∀ label, (Table.find? (⟨[(endLabel, s.lineCount)]⟩ : LabelTable) label).isSome ↔
      label = endLabel := by
    intro label
    by_cases h : label = endLabel
    · simp [Table.find?, h]
    · simp [Table.find?, List.lookup_cons, beq_eq_false_iff_ne.mpr h, h]
  simp only [Clash, Script.Clashes, Script.line?, hend]

theorem ofScript_of_clashes {s : Script} {j : Nat} (h : IsLeast {j | s.Clashes j} j) :
    ∃ l label, s.line? j = some l ∧ l.label? = some label ∧
      ofScript s = .error (.duplicateLabel label j) := by
  have first : ∀ i < j, ¬ Clash ⟨[(endLabel, s.lineCount)]⟩ s.lines i := by
    intro i hi hc
    have hle : j ≤ i := h.2 (clash_start.mp hc)
    omega
  obtain ⟨l, label, hl, hlabel, herror⟩ := addLines_of_clash (i := 0) (clash_start.mpr h.1) first
  exact ⟨l, label, hl, hlabel, by rw [ofScript, herror, Nat.zero_add]⟩

theorem ofScript_of_not_clashes {s : Script} (h : ∀ j, ¬ s.Clashes j) :
    ∃ t, ofScript s = .ok t ∧ t.Describes s := by
  obtain ⟨t, ht⟩ := addLines_of_not_clash (i := 0) fun j hc => h j (clash_start.mp hc)
  exact ⟨t, ht, ofScript_describes ht⟩

end LabelTable

namespace Playback

theorem events_announce (p : Playback) (message : Option String) :
    (p.announce message).map (·.event) = ((Text.present? message).map Event.message).toList := by
  simp only [announce]
  cases Text.present? message <;> rfl

theorem events_arrival_some (p : Playback) (l : Line) :
    (p.arrival (some l)).map (·.event) =
      .lineUpdate :: (l.message?.map Event.message).toList := by
  rw [arrival, List.map_cons, events_announce]
  rfl

theorem events_arrival_none {p : Playback} {s : Script} (h : p.script? = some s) :
    (p.arrival none).map (·.event) =
      .lineUpdate :: .finished :: (s.endMessage?.map Event.message).toList := by
  rw [arrival, List.map_cons, List.map_cons, events_announce, h]
  rfl

theorem load_of_clashes {p : Playback} {s : Script} {j : Nat} (h : IsLeast {j | s.Clashes j} j) :
    ∃ l label, s.line? j = some l ∧ l.label? = some label ∧
      p.load s = ⟨p.reset, [], .error (.duplicateLabel label j)⟩ := by
  obtain ⟨l, label, hl, hlabel, herror⟩ := LabelTable.ofScript_of_clashes h
  exact ⟨l, label, hl, hlabel, by simp [load, herror]⟩

/-- A script without clashes is there with its labels, and its first line or its end has come. -/
theorem load_of_not_clashes (p : Playback) {s : Script} (h : ∀ j, ¬ s.Clashes j) :
    let t := p.load s
    t.result = .ok () ∧ t.playback.Consistent ∧ t.playback.script? = some s ∧
      t.playback.index? = (s.line? 0).map (fun _ => 0) ∧
      t.moments = t.playback.arrival (s.line? 0) := by
  obtain ⟨labels, hlabels, described⟩ := LabelTable.ofScript_of_not_clashes h
  have hload : p.load s = ⟨(p.cue s labels).place 0,
      ((p.cue s labels).place 0).arrival ((p.cue s labels).line? 0), .ok ()⟩ := by
    simp [load, hlabels, arrive, cue]
  have hline : (p.cue s labels).line? 0 = s.line? 0 := rfl
  intro t
  rw [show t = _ from hload]
  refine ⟨rfl, consistent_place rfl described 0, place_script? _ 0, ?_, by rw [hline]⟩
  cases hl : s.line? 0 with
  | none => simp [place_of_none (hline.trans hl)]
  | some l => simp [place_of_some (hline.trans hl)]

end Playback

namespace Engine

variable {α : Type}

/-- A script is refused exactly because of the first line whose label is spoken for, and its table
is exact otherwise. -/
theorem load_exactly_unambiguous (e : Engine α) (s : Script) :
    let o := e.load s
    let p := o.engine.playback
    (∀ j, IsLeast {j | s.Clashes j} j →
      ∃ l label, s.line? j = some l ∧ l.label? = some label ∧
        o = ⟨{ e with playback := { Playback.new e.playback.id with epoch := e.playback.epoch + 1 } },
          [], .error (.duplicateLabel label j)⟩) ∧
      ((∀ j, ¬ s.Clashes j) → o.result = .ok () ∧ p.script? = some s ∧
        (∀ x n, p.labels.find? x = some n ↔
          x = endLabel ∧ n = s.lineCount ∨ ∃ l, s.line? n = some l ∧ l.label? = some x) ∧
        o.engine = { e with playback := p } ∧
        o.calls = (e.playback.load s).moments.flatMap e.deliver ∧
        match s.line? 0 with
        | some l => p.index? = some 0 ∧ p.current = some (p.issue 0 l) ∧
            (e.playback.load s).moments.map (·.event) =
              .lineUpdate :: (l.message?.map Event.message).toList
        | none => p.index? = none ∧ p.current = none ∧
            (e.playback.load s).moments.map (·.event) =
              .lineUpdate :: .finished :: (s.endMessage?.map Event.message).toList) ∧
      (o.result = .ok () ↔ ∀ j, ¬ s.Clashes j) := by
  intro o p
  have refused : ∀ j, IsLeast {j | s.Clashes j} j →
      ∃ l label, s.line? j = some l ∧ l.label? = some label ∧
        o = ⟨{ e with playback := { Playback.new e.playback.id with epoch := e.playback.epoch + 1 } },
          [], .error (.duplicateLabel label j)⟩ := by
    intro j hj
    obtain ⟨l, label, hl, hlabel, hload⟩ := Playback.load_of_clashes (p := e.playback) hj
    exact ⟨l, label, hl, hlabel, congrArg e.broadcast hload⟩
  refine ⟨refused, ?_, ?_⟩
  · intro h
    obtain ⟨hresult, hp, hscript, hindex, hmoments⟩ := Playback.load_of_not_clashes e.playback h
    refine ⟨hresult, hscript, hp.labelled s hscript, rfl, rfl, ?_⟩
    have hcurrent : p.current = p.index?.bind fun i => (p.line? i).map (p.issue i) :=
      Playback.current_eq_issue hp
    have hline : p.line? 0 = s.line? 0 := congrArg (·.bind (·.line? 0)) hscript
    have hindex : p.index? = (s.line? 0).map fun _ => 0 := hindex
    cases hl : s.line? 0 with
    | some l =>
      rw [hl] at hindex hline hmoments
      exact ⟨hindex, by simp [hcurrent, hindex, hline],
        by rw [hmoments, Playback.events_arrival_some]⟩
    | none =>
      rw [hl] at hindex hmoments
      exact ⟨hindex, by simp [hcurrent, hindex],
        by rw [hmoments, Playback.events_arrival_none hscript]⟩
  · constructor
    · intro hok j hj
      obtain ⟨i, hi⟩ := Script.exists_first_clash hj
      obtain ⟨l, label, -, -, ho⟩ := refused i hi
      rw [ho] at hok
      cases hok
    · exact fun h => (Playback.load_of_not_clashes e.playback h).1

/-- Blank labels clash with nothing, and a label clashes with its like and not with its capitals. -/
example :
    ((Engine.new 0 : Engine Unit).load
      { lines := [{ text := "One.", label := some "a" }, { text := "Two.", label := some " " },
          { text := "Three.", label := some "A" }, { text := "Four.", label := some " " },
          { text := "Five.", label := some "a" }, { text := "Six.", label := some "end" }] }).result =
      .error (.duplicateLabel "a" 4) := by rfl

end Engine

end Dialogue
