import Dialogue.Proofs.Endings
import Dialogue.Proofs.FreshStart

/-!
# Other labels

A label is a name and nothing more: an engine asks whether two labels are the same text, and whether
a text is the reserved one or is blank. So the labels of a script may be exchanged for others,
different ones for different ones, along with the jumps: the script is played in the same way.
-/
namespace Dialogue

/-- A text that can be a label. -/
abbrev Label := { t : String // Text.blank t = false }

def Label.reserved : Label := ⟨endLabel, by decide⟩

/-- Other labels for labels, different for different ones, and the reserved one for itself. -/
structure Relabelling where
  label : Label → Label
  injective : Function.Injective label
  reserved : label .reserved = .reserved

namespace Relabelling

variable (r : Relabelling)

/-- A blank text is no label and stays as it is. -/
def text (t : String) : String := if h : Text.blank t = false then r.label ⟨t, h⟩ else t

theorem text_of_not_blank {t : String} (h : Text.blank t = false) :
    r.text t = r.label ⟨t, h⟩ := by simp [text, h]

theorem text_of_blank {t : String} (h : Text.blank t) : r.text t = t := by simp [text, h]

@[simp] theorem blank_text (t : String) : Text.blank (r.text t) = Text.blank t := by
  cases h : Text.blank t with
  | true => rw [text_of_blank r h, h]
  | false => rw [text_of_not_blank r h, (r.label ⟨t, h⟩).2]

theorem text_injective : Function.Injective r.text := by
  intro t u h
  have hblank : Text.blank t = Text.blank u := by rw [← blank_text r t, h, blank_text]
  cases ht : Text.blank t with
  | true =>
    rw [ht] at hblank
    rwa [text_of_blank r ht, text_of_blank r hblank.symm] at h
  | false =>
    rw [ht] at hblank
    rw [text_of_not_blank r ht, text_of_not_blank r hblank.symm] at h
    exact congrArg Subtype.val (r.injective (Subtype.ext h))

@[simp] theorem text_endLabel : r.text endLabel = endLabel :=
  (text_of_not_blank r Label.reserved.2).trans (congrArg Subtype.val r.reserved)

theorem present?_map (o : Option String) :
    Text.present? (o.map r.text) = (Text.present? o).map r.text := by
  cases o with
  | none => rfl
  | some t => cases h : Text.blank t <;> simp [Text.present?, Option.filter, h]

end Relabelling

section Relabel

variable (r : Relabelling)

def Choice.relabel (c : Choice) : Choice := { c with jump := c.jump.map r.text }

def Line.relabel (l : Line) : Line :=
  { l with
    label := l.label.map r.text, jump := l.jump.map r.text, choices := l.choices.map (·.relabel r) }

def Script.relabel (s : Script) : Script := { s with lines := s.lines.map (·.relabel r) }

/-- The label inside an error, if there is one. -/
def EngineError.relabel : EngineError → EngineError
  | .duplicateLabel label line => .duplicateLabel (r.text label) line
  | .unresolvedJump label origin => .unresolvedJump (r.text label) origin
  | e => e

def Cursor.relabel (c : Cursor) : Cursor := { c with jump := c.jump.map r.text }

def CurrentLine.relabel (l : CurrentLine) : CurrentLine :=
  ⟨l.main.relabel r, l.choices.map (·.relabel r)⟩

def LabelTable.relabel (t : LabelTable) : LabelTable := ⟨t.entries.map fun x => (r.text x.1, x.2)⟩

def Playback.relabel (p : Playback) : Playback :=
  { p with
    script? := p.script?.map (·.relabel r)
    labels := LabelTable.relabel r p.labels
    main? := p.main?.map (·.relabel r)
    choices := p.choices.map (·.relabel r) }

def Moment.relabel (m : Moment) : Moment := { m with seen := m.seen.relabel r }

def Turn.relabel (t : Turn) : Turn :=
  ⟨t.playback.relabel r, t.moments.map (·.relabel r), t.result.mapError (·.relabel r)⟩

variable {α : Type}

def Engine.relabel (e : Engine α) : Engine α := { e with playback := e.playback.relabel r }

def Call.relabel (c : Call α) : Call α := { c with seen := c.seen.relabel r }

def Outcome.relabel (o : Outcome α) : Outcome α :=
  ⟨o.engine.relabel r, o.calls.map (·.relabel r), o.result.mapError (·.relabel r)⟩

end Relabel

namespace LabelTable

variable (r : Relabelling)

theorem lookup_relabel (xs : List (String × Nat)) (label : String) :
    (xs.map fun x => (r.text x.1, x.2)).lookup (r.text label) = xs.lookup label := by
  induction xs with
  | nil => rfl
  | cons x xs ih =>
    have hbeq : (r.text label == r.text x.1) = (label == x.1) := by
      rw [Bool.eq_iff_iff, beq_iff_eq, beq_iff_eq, r.text_injective.eq_iff]
    rw [List.map_cons, List.lookup_cons, List.lookup_cons, hbeq, ih]

theorem find?_relabel (t : LabelTable) (label : String) :
    Table.find? (relabel r t) (r.text label) = t.find? label :=
  lookup_relabel r t.entries label

theorem insert_relabel (t : LabelTable) (label : String) (n : Nat) :
    Table.insert (relabel r t) (r.text label) n = relabel r (t.insert label n) := by
  have hfilter : (t.entries.map fun x => (r.text x.1, x.2)).filter (·.1 ≠ r.text label) =
      (t.entries.filter (·.1 ≠ label)).map fun x => (r.text x.1, x.2) := by
    rw [List.filter_map]
    congr 2
    funext x
    simp [r.text_injective.eq_iff]
  simp only [Table.insert, relabel, hfilter, List.map_cons]

theorem label?_relabel (l : Line) : (l.relabel r).label? = l.label?.map r.text :=
  r.present?_map l.label

/-- A table made of other labels is the table with other labels, and the same line is refused. -/
theorem addLines_relabel (t : LabelTable) (i : Nat) (ls : List Line) :
    addLines (relabel r t) i (ls.map (·.relabel r)) =
      ((addLines t i ls).map (relabel r)).mapError (·.relabel r) := by
  induction ls generalizing t i with
  | nil => rfl
  | cons l ls ih =>
    simp only [List.map_cons, addLines, label?_relabel]
    cases l.label? with
    | none => exact ih t (i + 1)
    | some label =>
      simp only [Option.map_some, find?_relabel, insert_relabel, ih]
      split <;> rfl

theorem ofScript_relabel (s : Script) :
    ofScript (s.relabel r) = ((ofScript s).map (relabel r)).mapError (·.relabel r) := by
  have hcount : (s.relabel r).lineCount = s.lineCount := by simp [Script.lineCount, Script.relabel]
  have hstart : relabel r ⟨[(endLabel, s.lineCount)]⟩ = ⟨[(endLabel, s.lineCount)]⟩ := by
    simp [relabel]
  rw [ofScript, hcount, ← hstart]
  exact addLines_relabel r _ 0 s.lines

end LabelTable

namespace Playback

variable (r : Relabelling)

theorem relabel_line? (p : Playback) (i : Nat) :
    (p.relabel r).line? i = (p.line? i).map (·.relabel r) := by
  cases h : p.script? <;> simp [line?, relabel, h, Script.line?, Script.relabel]

theorem relabel_accepts (p : Playback) (c d : Cursor) (h : d.stamp = c.stamp)
    (ho : d.origin = c.origin) : (p.relabel r).accepts d = p.accepts c := by
  simp only [accepts, h, ho]
  rfl

theorem relabel_target (p : Playback) (i : Nat) (jump : Option String) :
    (p.relabel r).target i (jump.map r.text) = (p.target i jump).mapError (·.relabel r) := by
  simp only [target, r.present?_map]
  cases Text.present? jump with
  | none => rfl
  | some label =>
    have hfind : (p.relabel r).labels.find? (r.text label) = p.labels.find? label :=
      LabelTable.find?_relabel r p.labels label
    simp only [Option.map_some, hfind]
    cases p.labels.find? label <;> rfl

theorem relabel_issue (p : Playback) (i : Nat) (l : Line) :
    (p.relabel r).issue i (l.relabel r) = (p.issue i l).relabel r := by
  have hjump : ∀ c : Choice, (c.relabel r).jump? = c.jump?.map r.text := fun c => r.present?_map c.jump
  have hchoices : ((p.relabel r).issue i (l.relabel r)).choices =
      (p.issue i l).choices.map (·.relabel r) := by
    simp only [issue, Line.relabel, List.mapIdx_eq_zipIdx_map, List.zipIdx_map, List.map_map,
      Function.comp_def, Cursor.relabel, Prod.map, hjump]
    rfl
  have hmain : ((p.relabel r).issue i (l.relabel r)).main = (p.issue i l).main.relabel r := by
    simp only [issue, Cursor.relabel, Line.jump?, Line.relabel, r.present?_map]
    rfl
  exact congrArg₂ CurrentLine.mk hmain hchoices

theorem relabel_ending (p : Playback) :
    (p.relabel r).script?.bind (·.ending.message) = p.script?.bind (·.ending.message) := by
  cases h : p.script? <;> simp [relabel, h, Script.relabel]

end Playback

/-- Other labels are a guise. -/
def Relabelling.guise (r : Relabelling) : Guise where
  playback := (·.relabel r)
  line := (·.relabel r)
  cursor := (·.relabel r)
  error := (·.relabel r)
  shows _ _ _ _ := rfl
  invalidate _ := rfl
  issue := Playback.relabel_issue r
  line? := Playback.relabel_line? r
  speaker _ := rfl
  message _ := rfl
  ending p := congrArg Text.present? (Playback.relabel_ending r p)
  text _ := rfl
  parting _ := rfl
  origin _ := rfl
  accepts p c := Playback.relabel_accepts r p c (c.relabel r) rfl rfl
  target p i c := Playback.relabel_target r p i c.jump
  stale _ := rfl
  idle := rfl
  outOfRange _ _ := rfl

/-- Other labels before a script is loaded, or after. -/
theorem Playback.load_relabel (r : Relabelling) (p : Playback) (s : Script) :
    p.load (s.relabel r) = (p.load s).relabel r :=
  load_guise r.guise rfl (LabelTable.ofScript_relabel r s) fun _ => rfl

variable {α : Type} (r : Relabelling)

namespace Engine

/-- An engine has nothing of its own script in hand when another one is loaded. -/
theorem load_relabel (e : Engine α) (s : Script) :
    e.load (s.relabel r) = (e.load s).relabel r :=
  broadcast_guise r.guise e (Playback.load_relabel r e.playback s)

/-- Whatever is asked of an engine is done in the same way under other labels, as long as no script
is loaded. -/
theorem perform_relabel (e : Engine α) {op : Operation α} (plain : op.namesCursor = false)
    (playing : op.loads = false) : (e.relabel r).perform op = (e.perform op).relabel r := by
  cases op with
  | load | loadText => cases playing
  | advance => cases plain
  | advanceMain => exact broadcast_guise r.guise e (Playback.advanceMain_guise r.guise e.playback)
  | choose k => exact broadcast_guise r.guise e (Playback.choose_guise r.guise e.playback k)
  | select x => exact broadcast_guise r.guise e (Playback.select_guise r.guise e.playback x)
  | reset | subscribe | unsubscribe => rfl

end Engine

/-- Other labels are a disguise that suits all operations that load no script. -/
def Relabelling.disguise : Disguise α where
  toGuise := r.guise
  suits op := !op.loads
  perform e op plain playing := Engine.perform_relabel r e plain (by simpa using playing)

/-- Whether a request is to load a script. -/
def Request.loads : Request α → Bool
  | .perform op _ => op.loads
  | .grab | .advance _ _ => false

theorem Request.suits_relabelling {q : Request α} (h : q.loads = false) :
    q.suits (r.disguise : Disguise α) := by
  cases q with
  | perform op plain =>
    have h : op.loads = false := h
    simp [suits, Relabelling.disguise, h]
  | grab | advance => rfl

theorem Engine.recordedBy_relabel (n : Nat) (calls : List (Call α)) :
    recordedBy n (calls.map (·.relabel r)) = recordedBy n calls := by
  simp only [recordedBy, List.filter_map, List.map_map]
  refine List.map_congr_left fun c _ => ?_
  exact Playback.entry_guise r.guise c.seen.playback c.event

namespace Engine

/-- A script with other labels is played as it is with its own; only the labels inside errors, jumps
and cursors are other ones. -/
theorem labels_are_opaque (id : Nat) (history : List (Operation α)) (s : Script)
    {later : List (Request α)} (playing : ∀ q ∈ later, q.loads = false) :
    let c : Caller α := ⟨(new id).run history, []⟩
    let own := .perform (.load s) rfl :: later
    let other := .perform (.load (s.relabel r)) rfl :: later
    let xs := c.outcomes own
    let ys := c.outcomes other
    let p := (c.run own).engine.playback
    let q := (c.run other).engine.playback
    ys = xs.map (·.relabel r) ∧
      ys.map (·.result) = xs.map (fun o => o.result.mapError (·.relabel r)) ∧
      ys.map (·.engine.playback.index?) = xs.map (·.engine.playback.index?) ∧
      (∀ n, ys.map (fun o => recordedBy n o.calls) = xs.map fun o => recordedBy n o.calls) ∧
      (c.run other).grabbed = (c.run own).grabbed.map (·.relabel r) ∧
      q.current = p.current.map (·.relabel r) ∧ q.speaker? = p.speaker? ∧
      q.lineCount = p.lineCount ∧ q.stamp = p.stamp ∧ ∀ d, q.accepts d = p.accepts d := by
  intro c own other xs ys p q
  have hload : c.ask (.perform (.load (s.relabel r)) rfl) =
      (c.ask (.perform (.load s) rfl)).relabel r := load_relabel r c.engine s
  have hafter : c.after (.perform (.load (s.relabel r)) rfl) =
      (c.after (.perform (.load s) rfl)).disguise r.disguise := by
    rw [Caller.after, hload]
    rfl
  obtain ⟨hrun, houtcomes⟩ := Caller.run_disguise r.disguise (c.after (.perform (.load s) rfl))
    fun x hx => Request.suits_relabelling r (playing x hx)
  have hys : ys = xs.map (·.relabel r) := by
    simp only [ys, xs, own, other, Caller.outcomes, hload, hafter, houtcomes]
    rfl
  have hcaller : c.run other = (c.run own).disguise r.disguise := by
    simp only [own, other, Caller.run, List.foldl_cons, hafter]
    exact hrun
  have hq : q = p.relabel r := congrArg (fun c : Caller α => c.engine.playback) hcaller
  refine ⟨hys, ?_, ?_, ?_, congrArg Caller.grabbed hcaller, ?_, ?_, ?_, by rw [hq]; rfl, ?_⟩
  · rw [hys, List.map_map]
    rfl
  · rw [hys, List.map_map]
    rfl
  · intro n
    rw [hys, List.map_map]
    exact List.map_congr_left fun o _ => recordedBy_relabel r n o.calls
  · rw [hq]
    exact Playback.current_guise r.guise p
  · rw [hq]
    exact Playback.speaker?_guise r.guise p
  · rw [hq]
    cases h : p.script? <;>
      simp [Playback.lineCount, Playback.relabel, h, Script.lineCount, Script.relabel]
  · intro d
    rw [hq, Playback.relabel_accepts r p d d rfl rfl]

/-- Two labels change places, of which the script bears one and asks for both. It asks for the other
one in vain, before and after. -/
theorem swapped_labels_play_alike :
    let a : Label := ⟨"a", by decide⟩
    let yard : Label := ⟨"yard", by decide⟩
    let swap : Relabelling := ⟨Equiv.swap a yard, (Equiv.swap a yard).injective, by decide⟩
    let s : Script := {
      lines := [
        { text := "Where to?", label := some "a", jump := some "end",
          choices := [⟨"Back.", some "a", none⟩, ⟨"To the yard.", some "yard", none⟩,
            ⟨"Back!", some "A", none⟩] }] }
    let c : Caller Unit := ⟨(new 0).run [.subscribe .all ()], []⟩
    let later : List (Request Unit) := [.perform (.choose 0) rfl, .grab, .perform (.choose 1) rfl,
      .advance 0 (.choice 2), .advance 0 .main, .advance 0 .main]
    (∀ q ∈ later, q.loads = false) ∧
      ((s.relabel swap).lines.map (·.label)) = [some "yard"] ∧
      (c.outcomes (.perform (.load (s.relabel swap)) rfl :: later)).map (·.result) =
        [.ok (), .ok (), .ok (), .error (.unresolvedJump "a" 0), .error (.unresolvedJump "A" 0),
          .ok (), .error (.staleCursor 0)] ∧
      (c.outcomes (.perform (.load (s.relabel swap)) rfl :: later)).map
          (fun o => recordedBy 1 o.calls) =
        [[.line "" "Where to?" ["Back.", "To the yard.", "Back!"]],
          [.line "" "Where to?" ["Back.", "To the yard.", "Back!"]], [], [], [],
          [.cleared, .finished], []] := by
  intro a yard swap s c later
  have playing : ∀ q ∈ later, q.loads = false := by simp [later, Request.loads, Operation.loads]
  obtain ⟨-, results, -, transcripts, -⟩ :=
    labels_are_opaque swap 0 [.subscribe .all ()] s playing
  exact ⟨playing, by decide +kernel, results.trans (by decide +kernel),
    (transcripts 1).trans (by decide +kernel)⟩

end Engine

end Dialogue
