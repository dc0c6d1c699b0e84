import Dialogue.Proofs.Consistency
import Dialogue.Proofs.Subscribers

/-!
# Walking through a script

A walk knows a script and the line it has come to, and nothing else: no table of labels, no
cursors, no subscribers. A recorded engine comes to the same results and the same entries.
-/
namespace Dialogue

/-- The results of a list of selections, and all that is entered on the way. -/
structure Walk where
  results : List (Except EngineError Unit)
  entries : List Entry

namespace Walk

/-- A message is entered unless it is absent or blank. -/
def remark (message : Option String) : List Entry :=
  ((Text.present? message).map Entry.message).toList

/-- Where a jump from line `i` leads: to the line that bears the label, to the end by the reserved
label, and to the next line without a jump. -/
def goal (s : Script) (i : Nat) (jump : Option String) : Except EngineError Nat :=
  match Text.present? jump with
  | none => .ok (i + 1)
  | some label =>
    if label = endLabel then .ok s.lineCount
    else
      match s.lines.findIdx? (·.label? = some label) with
      | some j => .ok j
      | none => .error (.unresolvedJump label i)

/-- Coming to line `i`, or to the end if there is no such line, and what is entered there. -/
def arrive (s : Script) (i : Nat) : Option Nat × List Entry :=
  match s.line? i with
  | some l =>
    (some i, .line l.speakerName l.text (l.choices.map (·.text)) :: remark l.message)
  | none => (none, .cleared :: .finished :: remark s.ending.message)

/-- The jump and the message with which a selection leaves a line. -/
def exit (l : Line) : Selection → Except EngineError (Option String × Option String)
  | .main => .ok (l.jump, none)
  | .choice k =>
    match l.choices[k.toNat]? with
    | some c => .ok (c.jump, c.message)
    | none => .error (.choiceOutOfRange k.toNat l.choices.length)

/-- One selection. The message of the way taken is entered after all of the arrival. -/
def step (s : Script) (place : Option Nat) (x : Selection) :
    Except EngineError (Option Nat × List Entry) :=
  match place with
  | none => .error .notActive
  | some i =>
    match s.line? i with
    | none => .error .notActive
    | some l => do
      let (jump, message) ← exit l x
      let j ← goal s i jump
      .ok ((arrive s j).1, (arrive s j).2 ++ remark message)

theorem step_of_exit_error {s : Script} {i : Nat} {l : Line} {x : Selection} {e : EngineError}
    (hl : s.line? i = some l) (he : exit l x = .error e) : step s (some i) x = .error e := by
  simp [step, hl, he, bind, Except.bind]

theorem step_of_exit_ok {s : Script} {i : Nat} {l : Line} {x : Selection}
    {jump message : Option String} (hl : s.line? i = some l) (he : exit l x = .ok (jump, message)) :
    step s (some i) x = (goal s i jump).map fun j =>
      ((arrive s j).1, (arrive s j).2 ++ remark message) := by
  simp only [step, hl, he, bind, Except.bind]
  cases goal s i jump <;> rfl

/-- A selection that fails leaves the walk where it is. -/
def onward (s : Script) (place : Option Nat) : List Selection → Walk
  | [] => ⟨[], []⟩
  | x :: xs =>
    match step s place x with
    | .error e =>
      let rest := onward s place xs
      ⟨.error e :: rest.results, rest.entries⟩
    | .ok (next, entries) =>
      let rest := onward s next xs
      ⟨.ok () :: rest.results, entries ++ rest.entries⟩

/-- The whole walk, from coming to the first line. -/
def through (s : Script) (xs : List Selection) : Walk :=
  let first := arrive s 0
  let rest := onward s first.1 xs
  ⟨.ok () :: rest.results, first.2 ++ rest.entries⟩

end Walk

namespace Playback

/-- A playback shows what a walk has come to. -/
structure Shows (p : Playback) (s : Script) (place : Option Nat) : Prop where
  consistent : p.Consistent
  script : p.script? = some s
  index : p.index? = place

theorem find?_of_describes {t : LabelTable} {s : Script} (h : t.Describes s) {label : String}
    (hend : label ≠ endLabel) :
    t.find? label = s.lines.findIdx? (·.label? = some label) := by
  cases hf : s.lines.findIdx? (·.label? = some label) with
  | some n =>
    obtain ⟨hn, hlabel, _⟩ := List.findIdx?_eq_some_iff_getElem.mp hf
    refine (h label n).mpr (.inr ⟨s.lines[n], List.getElem?_eq_getElem hn, ?_⟩)
    simpa using hlabel
  | none =>
    cases ht : t.find? label with
    | none => rfl
    | some n =>
      rcases (h label n).mp ht with ⟨he, _⟩ | ⟨l, hl, hlabel⟩
      · exact absurd he hend
      · have hno := List.findIdx?_eq_none_iff.mp hf l (List.mem_of_getElem? hl)
        simp [hlabel] at hno

/-- The table of labels leads where the script itself says. -/
theorem goal_eq_lookup {t : LabelTable} {s : Script} (h : t.Describes s) {jump : Option String}
    {label : String} (hp : Text.present? jump = some label) (i : Nat) :
    Walk.goal s i jump =
      match t.find? label with
      | some j => .ok j
      | none => .error (.unresolvedJump label i) := by
  rw [Walk.goal, hp]
  by_cases he : label = endLabel
  · have hf : t.find? label = some s.lineCount := (h _ _).mpr (.inl ⟨he, rfl⟩)
    simp only [hf, if_pos he]
  · have hf := find?_of_describes h he
    cases hx : s.lines.findIdx? (·.label? = some label) with
    | some j => simp only [hf, hx, if_neg he]
    | none => simp only [hf, hx, if_neg he]

/-- A label leads to the one line that bears it. -/
theorem goal_eq_ok_iff {t : LabelTable} {s : Script} (h : t.Describes s) {label : String}
    (hb : Text.blank label = false) (i j : Nat) :
    Walk.goal s i (some label) = .ok j ↔
      label = endLabel ∧ j = s.lineCount ∨ ∃ l, s.line? j = some l ∧ l.label? = some label := by
  rw [goal_eq_lookup h (Text.present?_eq_some.mpr ⟨rfl, hb⟩), ← h label j]
  cases t.find? label <;> simp

theorem target_eq_goal {p : Playback} {s : Script} {place : Option Nat} (h : p.Shows s place)
    (i : Nat) (jump : Option String) : p.target i (Text.present? jump) = Walk.goal s i jump := by
  cases hp : Text.present? jump with
  | none => simp [target, Walk.goal, hp]
  | some label =>
    have hpp : Text.present? (some label) = some label := by rw [← hp, Text.present?_idem]
    have hg := goal_eq_lookup (h.consistent.labelled s h.script) hp i
    cases hf : p.labels.find? label with
    | some j => simp only [target, hpp, hg, hf]
    | none => simp only [target, hpp, hg, hf]

theorem entries_announce (p : Playback) (message : Option String) :
    (p.announce message).map Moment.entry = Walk.remark message := by
  simp only [announce, Walk.remark]
  cases Text.present? message <;> rfl

theorem texts_issue (p : Playback) (i : Nat) (l : Line) :
    (p.issue i l).texts = l.choices.map (·.text) := by
  apply List.ext_getElem?
  intro k
  simp [CurrentLine.texts, issue, Function.comp_def]

theorem shows_place {p : Playback} {s : Script} (hs : p.script? = some s)
    (hl : p.labels.Describes s) (i : Nat) : (p.place i).Shows s (Walk.arrive s i).1 := by
  have hline : p.line? i = s.line? i := by simp [line?, hs]
  refine ⟨consistent_place hs hl i, by rw [place_script?, hs], ?_⟩
  cases h : s.line? i with
  | none => simp [place_of_none (hline.trans h), Walk.arrive, h]
  | some l => simp [place_of_some (hline.trans h), Walk.arrive, h]

theorem entries_arrival {p : Playback} {s : Script} (hs : p.script? = some s)
    (hl : p.labels.Describes s) (i : Nat) :
    ((p.place i).arrival (p.line? i)).map Moment.entry = (Walk.arrive s i).2 := by
  have hline : p.line? i = s.line? i := by simp [line?, hs]
  have hscript : (p.place i).script? = some s := by rw [place_script?, hs]
  cases h : s.line? i with
  | none =>
    have hc : (p.place i).current = none := by simp [place_of_none (hline.trans h), current]
    have hcleared : Moment.entry ⟨.lineUpdate, p.place i⟩ = .cleared := by
      simp [Moment.entry, entry, hc]
    rw [hline, h]
    simp only [arrival, Walk.arrive, h, List.map_cons, hcleared, hscript, Option.bind_some,
      entries_announce]
    rfl
  | some l =>
    have hi := index?_place_of_some (hline.trans h)
    have hl' : (p.place i).line? i = some l := by
      rw [line?, hscript]
      exact h
    have hc : (p.place i).current = some ((p.place i).issue i l) := by
      rw [current_eq_issue (consistent_place hs hl i), hi, Option.bind_some, hl']
      rfl
    have hshown : Moment.entry ⟨.lineUpdate, p.place i⟩ =
        .line l.speakerName l.text (l.choices.map (·.text)) := by
      simp only [Moment.entry, entry, hc, texts_issue, speaker?, hi, Option.bind_some, hl',
        Option.map_some, Option.getD_some]
      rfl
    rw [hline, h]
    simp only [arrival, Walk.arrive, h, List.map_cons, hshown, entries_announce]

/-- Leaving by a cursor of the line on show is going on by its jump and its message. -/
theorem advance_eq_walk {p : Playback} {s : Script} {i : Nat} (h : p.Shows s (some i))
    {c : Cursor} (hc : p.accepts c) {jump message : Option String}
    (hjump : c.jump = Text.present? jump)
    (hmessage : Walk.remark c.message = Walk.remark message) :
    match Walk.goal s i jump with
    | .error e => p.advance c = p.refuse e
    | .ok j => (p.advance c).result = .ok () ∧
        (p.advance c).entries = (Walk.arrive s j).2 ++ Walk.remark message ∧
        (p.advance c).playback.Shows s (Walk.arrive s j).1 := by
  have hi : c.origin = i := by
    have hindex := (accepts_iff.mp hc).1
    rw [h.index] at hindex
    exact (Option.some.inj hindex).symm
  have ht : p.target c.origin c.jump = Walk.goal s i jump := by
    rw [hi, hjump, target_eq_goal h]
  cases hg : Walk.goal s i jump with
  | error e => exact advance_of_target_error hc (ht.trans hg)
  | ok j =>
    have hd := h.consistent.labelled s h.script
    rw [advance_of_target_ok hc (ht.trans hg)]
    refine ⟨rfl, ?_, shows_place h.script hd j⟩
    rw [Turn.entries, List.map_append, entries_arrival h.script hd, entries_announce, hmessage]

theorem current_of_shows {p : Playback} {s : Script} {i : Nat} (h : p.Shows s (some i)) {l : Line}
    (hl : s.line? i = some l) : p.current = some (p.issue i l) := by
  have hline : p.line? i = some l := by simpa [line?, h.script] using hl
  simp [current_eq_issue h.consistent, h.index, hline]

/-- A selection names a way out of the line, and the engine has a cursor for it. -/
theorem select_eq_exit {p : Playback} {s : Script} {i : Nat} (h : p.Shows s (some i)) {l : Line}
    (hl : s.line? i = some l) (x : Selection) :
    match Walk.exit l x with
    | .error e => p.select x = p.refuse e
    | .ok (jump, message) => ∃ c, p.select x = p.advance c ∧ p.accepts c ∧
        c.jump = Text.present? jump ∧ Walk.remark c.message = Walk.remark message := by
  have hcur := current_of_shows h hl
  have haccepts := fun c hc => accepts_of_mem_current h.consistent hcur (c := c) hc
  cases x with
  | main =>
    refine ⟨(p.issue i l).main, ?_, haccepts _ List.mem_cons_self, rfl, rfl⟩
    simp only [select, advanceMain, hcur]
  | choice k =>
    have hk : (p.issue i l).choices[k.toNat]? = l.choices[k.toNat]?.map fun c =>
        ⟨p.stamp, .choice k.toNat, i, c.text, c.jump?, c.message?⟩ := by
      simp [issue]
    cases hc : l.choices[k.toNat]? with
    | none =>
      rw [hc, Option.map_none] at hk
      have hlen : (p.issue i l).choices.length = l.choices.length := by simp [issue]
      simp only [Walk.exit, hc, select, choose, hcur, hk, hlen]
    | some c =>
      rw [hc, Option.map_some] at hk
      simp only [Walk.exit, hc]
      refine ⟨_, ?_, haccepts _ (List.mem_cons_of_mem _ (List.mem_of_getElem? hk)), rfl, ?_⟩
      · simp only [select, choose, hcur, hk]
      · simp [Walk.remark, Choice.message?]

/-- One selection of an engine is one step of a walk. -/
theorem select_eq_step {p : Playback} {s : Script} {place : Option Nat} (h : p.Shows s place)
    (x : Selection) :
    match Walk.step s place x with
    | .error e => p.select x = p.refuse e
    | .ok (next, entries) => (p.select x).result = .ok () ∧ (p.select x).entries = entries ∧
        (p.select x).playback.Shows s next := by
  cases place with
  | none =>
    have hc : p.current = none := by simp [current, h.index]
    cases x <;> simp only [Walk.step, select, advanceMain, choose, hc]
  | some i =>
    obtain ⟨t, l, ht, hl, _⟩ := line?_of_index? h.consistent h.index
    obtain rfl : t = s := Option.some.inj (ht.symm.trans h.script)
    have hexit := select_eq_exit h hl x
    cases he : Walk.exit l x with
    | error e =>
      rw [he] at hexit
      rw [Walk.step_of_exit_error hl he]
      exact hexit
    | ok way =>
      obtain ⟨jump, message⟩ := way
      rw [he] at hexit
      obtain ⟨c, hc, haccepts, hjump, hmessage⟩ := hexit
      have hadvance := advance_eq_walk h haccepts hjump hmessage
      rw [hc, Walk.step_of_exit_ok hl he]
      cases hg : Walk.goal t i jump with
      | error e =>
        rw [hg] at hadvance
        exact hadvance
      | ok j =>
        rw [hg] at hadvance
        exact hadvance

theorem shows_load {p : Playback} {s : Script} (h : (p.load s).result = .ok ()) :
    (p.load s).playback.Shows s (Walk.arrive s 0).1 ∧ (p.load s).entries = (Walk.arrive s 0).2 := by
  unfold load at h ⊢
  split at h
  · cases h
  · next labels labelled =>
    have hd := LabelTable.ofScript_describes labelled
    exact ⟨shows_place (p := p.cue s labels) rfl hd 0,
      entries_arrival (p := p.cue s labels) rfl hd 0⟩

end Playback

namespace Engine

variable {α : Type}

theorem outcomes_eq_onward {e : Engine α} {s : Script} {place : Option Nat}
    (hs : e.playback.Shows s place) (he : e.Numbered) {r : Subscriber α} (hr : r ∈ e.subscribers)
    (hall : r.channel = .all) (xs : List Selection) :
    let outcomes := e.outcomes (xs.map .select)
    outcomes.map (·.result) = (Walk.onward s place xs).results ∧
      outcomes.flatMap (fun o => recordedBy r.id o.calls) = (Walk.onward s place xs).entries := by
  induction xs generalizing e place with
  | nil => exact ⟨rfl, rfl⟩
  | cons x xs ih =>
    have hstep := Playback.select_eq_step hs x
    cases hx : Walk.step s place x with
    | error err =>
      rw [hx] at hstep
      have hstays : e.select x = ⟨e, [], .error err⟩ := by
        simp only [select, hstep, broadcast, Playback.refuse, List.flatMap_nil]
      obtain ⟨hresults, hentries⟩ := ih hs he hr
      simp only [List.map_cons, outcomes, perform, hstays, Walk.onward, hx, List.flatMap_cons]
      exact ⟨congrArg _ hresults, hentries⟩
    | ok reached =>
      obtain ⟨next, entries⟩ := reached
      rw [hx] at hstep
      obtain ⟨hresult, hentered, hshows⟩ := hstep
      obtain ⟨hresults, hentries⟩ := ih (e := (e.select x).engine) hshows
        (numbered_perform he (.select x)) hr
      have hrecorded := recordedBy_broadcast he hr hall (e.playback.select x)
      simp only [List.map_cons, outcomes, perform, Walk.onward, hx, List.flatMap_cons]
      exact ⟨congrArg₂ List.cons hresult hresults,
        congrArg₂ List.append (hrecorded.trans hentered) hentries⟩

/-- An engine with any past and any other subscribers yields the results of the walk through its
script, and a recorder writes down its entries. -/
theorem recorded_run_eq_walk (id : Nat) (history : List (Operation α)) (handler : α) (s : Script)
    (xs : List Selection) :
    let e := ((Engine.new id).run history).subscribe .all handler
    let outcomes := e.outcomes (.load s :: xs.map .select)
    (e.load s).result = .ok () →
      outcomes.map (·.result) = (Walk.through s xs).results ∧
        outcomes.flatMap (fun o => recordedBy e.issued o.calls) = (Walk.through s xs).entries ∧
        ∀ i j label, Text.blank label = false →
          (Walk.goal s i (some label) = .ok j ↔ label = endLabel ∧ j = s.lineCount ∨
            ∃ l, s.line? j = some l ∧ l.label? = some label) := by
  intro e outcomes loads
  have he : e.Numbered := numbered_subscribe (numbered_run (numbered_new id) history) .all handler
  let r : Subscriber α := ⟨e.issued, .all, handler⟩
  have hr : r ∈ e.subscribers := List.mem_append_right _ List.mem_cons_self
  obtain ⟨hshows, hentered⟩ := Playback.shows_load loads
  obtain ⟨hresults, hentries⟩ := outcomes_eq_onward (e := (e.load s).engine) hshows
    (numbered_perform he (.load s)) hr rfl xs
  have hrecorded := recordedBy_broadcast he hr rfl (e.playback.load s)
  have hd := hshows.consistent.labelled s hshows.script
  exact ⟨congrArg₂ List.cons loads hresults,
    congrArg₂ List.append (hrecorded.trans hentered) hentries,
    fun i j _ hb => Playback.goal_eq_ok_iff hd hb i j⟩

/-- A choice out of range and a selection after the end fail, and the walk goes on. -/
theorem gate_run_eq_walk :
    let s : Script := {
      lines := [{ text := "Halt!", speaker := some "Guard", message := some "gate" },
        { text := "Well?", choices := [{ text := "Pay", jump := some "in", message := some "toll" },
          { text := "Leave", jump := some "end" }] },
        { text := "Pass.", label := some "in" }]
      ending := { message := some "bye" } }
    let e : Engine Unit := (Engine.new 0).subscribe .all ()
    let outcomes := e.outcomes (.load s ::
      [Selection.main, .choice 5, .choice 0, .main, .main].map .select)
    (e.load s).result = .ok () ∧
      outcomes.map (·.result) = [.ok (), .ok (), .error (.choiceOutOfRange 5 2), .ok (), .ok (),
        .error .notActive] ∧
      outcomes.flatMap (fun o => recordedBy 1 o.calls) = [.line "Guard" "Halt!" [],
        .message "gate", .line "" "Well?" ["Pay", "Leave"], .line "" "Pass." [], .message "toll",
        .cleared, .finished, .message "bye"] := by
  intro s e outcomes
  have loads : (e.load s).result = .ok () := rfl
  obtain ⟨hresults, hentries, _⟩ := recorded_run_eq_walk 0 [] () s
    [.main, .choice 5, .choice 0, .main, .main] loads
  exact ⟨loads, hresults.trans rfl, hentries.trans rfl⟩

end Engine

end Dialogue
