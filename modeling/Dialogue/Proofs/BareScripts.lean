import Dialogue.Proofs.FreshStart
import Dialogue.Proofs.Subscribers

/-!
# What of a script counts

A blank label, jump or message counts as absent, a line that nobody speaks has the empty speaker,
and notes and metadata are there for authors. A bare script has nothing of the kind. Baring the
script that an engine plays commutes with all that the engine does, so two scripts with one bare
form are played alike and only the script itself tells them apart.
-/
namespace Dialogue

def Choice.bare (c : Choice) : Choice := { c with jump := c.jump?, message := c.message? }

def Line.bare (l : Line) : Line where
  text := l.text
  speaker := some l.speakerName
  label := l.label?
  message := l.message?
  jump := l.jump?
  choices := l.choices.map Choice.bare

def Script.bare (s : Script) : Script where
  lines := s.lines.map Line.bare
  ending := ⟨s.endMessage?⟩

namespace Choice

@[simp] theorem bare_jump? (c : Choice) : c.bare.jump? = c.jump? := Text.present?_idem c.jump

@[simp] theorem bare_message? (c : Choice) : c.bare.message? = c.message? :=
  Text.present?_idem c.message

end Choice

namespace Line

@[simp] theorem bare_label? (l : Line) : l.bare.label? = l.label? := Text.present?_idem l.label

@[simp] theorem bare_jump? (l : Line) : l.bare.jump? = l.jump? := Text.present?_idem l.jump

@[simp] theorem bare_message? (l : Line) : l.bare.message? = l.message? :=
  Text.present?_idem l.message

end Line

namespace Script

@[simp] theorem bare_line? (s : Script) (i : Nat) : s.bare.line? i = (s.line? i).map Line.bare :=
  List.getElem?_map

@[simp] theorem bare_lineCount (s : Script) : s.bare.lineCount = s.lineCount := by
  simp [lineCount, bare]

end Script

namespace LabelTable

theorem addLines_bare (t : LabelTable) (i : Nat) (ls : List Line) :
    addLines t i (ls.map Line.bare) = addLines t i ls := by
  induction ls generalizing t i with
  | nil => rfl
  | cons l ls ih => simp only [List.map_cons, addLines, Line.bare_label?, ih]

/-- Two scripts with one bare form have the same labels, or the same label is given twice. -/
theorem ofScript_bare (s : Script) : ofScript s.bare = ofScript s := by
  have hlines : s.bare.lines = s.lines.map Line.bare := rfl
  simp only [ofScript, Script.bare_lineCount, hlines, addLines_bare]

end LabelTable

/-- All that can be asked of a playback but for the script itself. -/
structure Answers where
  stamp : Stamp
  lineCount : Nat
  index? : Option Nat
  active : Bool
  speaker? : Option String
  current : Option CurrentLine
  accepts : Cursor → Bool
  entry : Event → Entry

namespace Playback

def answers (p : Playback) : Answers :=
  ⟨p.stamp, p.lineCount, p.index?, p.active, p.speaker?, p.current, p.accepts, p.entry⟩

/-- The playback with its script bared. -/
def bare (p : Playback) : Playback := { p with script? := p.script?.map Script.bare }

@[simp] theorem bare_line? (p : Playback) (i : Nat) :
    p.bare.line? i = (p.line? i).map Line.bare := by
  cases h : p.script? <;> simp [line?, bare, h]

@[simp] theorem bare_current (p : Playback) : p.bare.current = p.current := rfl

@[simp] theorem bare_lineCount (p : Playback) : p.bare.lineCount = p.lineCount := by
  simp [lineCount, bare, Function.comp_def]

theorem issue_bare (p : Playback) (i : Nat) (l : Line) : p.issue i l.bare = p.issue i l := by
  have hchoices : (p.issue i l.bare).choices = (p.issue i l).choices := by
    have htext : ∀ c : Choice, c.bare.text = c.text := fun _ => rfl
    simp [issue, Line.bare, List.mapIdx_eq_zipIdx_map, List.zipIdx_map, Function.comp_def, htext]
  have hmain : (p.issue i l.bare).main = (p.issue i l).main := by
    simp only [issue, Line.bare_jump?]
    rfl
  exact congrArg₂ CurrentLine.mk hmain hchoices

theorem bare_ending (p : Playback) : p.bare.script?.bind (·.ending.message) =
    Text.present? (p.script?.bind (·.ending.message)) := by
  cases h : p.script? <;> simp [bare, h, Script.bare, Script.endMessage?]

end Playback

/-- A bare script is a guise, in which the cursors are the same. -/
def Guise.bare : Guise where
  toWording := .plain
  playback := Playback.bare
  line := Line.bare
  cursor := id
  shows p i? c? cs := by
    rw [Option.map_id_apply, List.map_id]
    rfl
  invalidate _ := rfl
  issue p i l := by
    have hissue : p.bare.issue i l.bare = p.issue i l := p.issue_bare i l
    rw [hissue, CurrentLine.map, List.map_id]
    rfl
  line? := Playback.bare_line?
  speaker _ := rfl
  message := Line.bare_message?
  ending p := by rw [Playback.bare_ending, Text.present?_idem]
  text _ := rfl
  parting _ := rfl
  origin _ := rfl
  accepts _ _ := rfl
  target := Playback.target_plain

/-- The script is bared behind the back of all queries. -/
theorem Playback.bare_answers (p : Playback) : p.bare.answers = p.answers := by
  have hspeaker : p.bare.speaker? = p.speaker? := speaker?_guise Guise.bare p
  have hentry : p.bare.entry = p.entry := funext (entry_guise Guise.bare p)
  simp only [answers, bare_lineCount, bare_current, hspeaker, hentry]
  rfl

def Moment.bare (m : Moment) : Moment := { m with seen := m.seen.bare }

def Turn.bare (t : Turn) : Turn := ⟨t.playback.bare, t.moments.map Moment.bare, t.result⟩

theorem Turn.bare_eq_guise (t : Turn) : t.bare = Guise.bare.turn t :=
  congrArg (Turn.mk _ _) (mapError_id t.result).symm

namespace Playback

variable {α : Type}

/-- A script bared before it is loaded, or after. -/
theorem load_bare (p : Playback) (s : Script) : p.load s.bare = (p.load s).bare := by
  have htable : LabelTable.ofScript s.bare =
      ((LabelTable.ofScript s).map fun t => t).mapError Guise.bare.error := by
    rw [LabelTable.ofScript_bare]
    cases LabelTable.ofScript s <;> rfl
  rw [Turn.bare_eq_guise]
  exact load_guise Guise.bare rfl htable fun _ => rfl

theorem advance_bare (p : Playback) (c : Cursor) : p.bare.advance c = (p.advance c).bare := by
  rw [Turn.bare_eq_guise]
  exact advance_guise Guise.bare p c

theorem advanceMain_bare (p : Playback) : p.bare.advanceMain = p.advanceMain.bare := by
  rw [Turn.bare_eq_guise]
  exact advanceMain_guise Guise.bare p

theorem choose_bare (p : Playback) (k : Nat) : p.bare.choose k = (p.choose k).bare := by
  rw [Turn.bare_eq_guise]
  exact choose_guise Guise.bare p k

theorem stamp_of_bare {p q : Playback} (h : p.bare = q.bare) : p.stamp = q.stamp :=
  (congrArg stamp h :)

theorem reset_of_bare {p q : Playback} (h : p.bare = q.bare) : p.reset = q.reset :=
  reset_eq_of_stamp (stamp_of_bare h)

/-- What is asked of two playbacks that are alike leaves them alike, with the same result. A script
that is loaded then is the same for both. -/
theorem turn_bare_congr {p q : Playback} (h : p.bare = q.bare) (op : Operation α) :
    (p.turn op).bare = (q.turn op).bare := by
  have hload := load_eq_of_stamp (stamp_of_bare h)
  have hreset := reset_of_bare h
  cases op with
  | load s => exact congrArg Turn.bare (hload s)
  | loadText source => simp only [turn, loadText, hreset]
  | reset => simp only [turn, hreset]
  | advance c => simp only [turn, ← advance_bare, h]
  | advanceMain => simp only [turn, ← advanceMain_bare, h]
  | choose k => simp only [turn, ← choose_bare, h]
  | select x =>
    cases x with
    | main => simp only [turn, select, ← advanceMain_bare, h]
    | choice k => simp only [turn, select, ← choose_bare, h]
  | subscribe channel handler => simp only [turn, Turn.bare, h]
  | unsubscribe id => simp only [turn, Turn.bare, h]

end Playback

variable {α : Type}

def Engine.bare (e : Engine α) : Engine α := { e with playback := e.playback.bare }

def Call.bare (c : Call α) : Call α := { c with seen := c.seen.bare }

def Outcome.bare (o : Outcome α) : Outcome α :=
  ⟨o.engine.bare, o.calls.map Call.bare, o.result⟩

/-- What a handler is told, with the answers it gets and the number of subscribers it sees. -/
structure Told (α : Type) where
  subscriber : Subscriber α
  event : Event
  answers : Answers
  subscribers : Nat

def Call.told (c : Call α) : Told α :=
  ⟨c.subscriber, c.event, c.seen.playback.answers, c.seen.subscribers.length⟩

/-- All that can be seen of an operation but for the script itself: its result, what the handlers
are told, and the answers and subscribers afterwards. -/
structure Observation (α : Type) where
  result : Except EngineError Unit
  told : List (Told α)
  answers : Answers
  subscribers : List (Subscriber α)

def Outcome.observation (o : Outcome α) : Observation α :=
  ⟨o.result, o.calls.map Call.told, o.engine.playback.answers, o.engine.subscribers⟩

theorem Call.bare_told (c : Call α) : c.bare.told = c.told := by
  have hanswers := Playback.bare_answers c.seen.playback
  simp only [told, bare, Engine.bare, hanswers]

theorem Outcome.bare_observation (o : Outcome α) : o.bare.observation = o.observation := by
  have hanswers := Playback.bare_answers o.engine.playback
  simp only [observation, bare, Engine.bare, hanswers, List.map_map, Function.comp_def,
    Call.bare_told]

theorem observations_of_bare {xs ys : List (Outcome α)}
    (h : xs.map Outcome.bare = ys.map Outcome.bare) :
    xs.map Outcome.observation = ys.map Outcome.observation := by
  have hobserved := congrArg (List.map Outcome.observation) h
  simpa only [List.map_map, Function.comp_def, Outcome.bare_observation] using hobserved

theorem Engine.recordedBy_eq_told (n : Nat) (calls : List (Call α)) :
    recordedBy n calls = ((calls.map Call.told).filter (·.subscriber.id = n)).map
      fun t => t.answers.entry t.event := by
  simp only [recordedBy, List.filter_map, List.map_map]
  rfl

namespace Engine

theorem broadcast_bare (e : Engine α) (t : Turn) :
    e.bare.broadcast t.bare = (e.broadcast t).bare := by
  have h := broadcast_guise Guise.bare e (Turn.bare_eq_guise t)
  exact h.trans (congrArg (Outcome.mk _ _) (mapError_id t.result))

theorem broadcast_bare_congr {e f : Engine α} (h : e.bare = f.bare) {t u : Turn}
    (ht : t.bare = u.bare) : (e.broadcast t).bare = (f.broadcast u).bare := by
  rw [← broadcast_bare, ← broadcast_bare, h, ht]

/-- Engines that are alike stay alike, whatever is asked of both. -/
theorem perform_bare_congr {e f : Engine α} (h : e.bare = f.bare) (op : Operation α) :
    (e.perform op).bare = (f.perform op).bare := by
  have hplayback : e.playback.bare = f.playback.bare := congrArg playback h
  have hsubscribers : e.subscribers = f.subscribers := (congrArg subscribers h :)
  have hissued : e.issued = f.issued := (congrArg issued h :)
  have hturn := Playback.turn_bare_congr hplayback op
  cases op with
  | subscribe channel handler =>
    simp [perform, subscribe, Outcome.bare, bare, hplayback, hsubscribers, hissued]
  | unsubscribe id =>
    simp [perform, unsubscribe, Outcome.bare, bare, hplayback, hsubscribers, hissued]
  | reset =>
    have hreset := Playback.reset_of_bare hplayback
    simp [perform, reset, Outcome.bare, bare, hreset, hsubscribers, hissued]
  | _ => exact broadcast_bare_congr h hturn

theorem outcomes_bare_congr {e f : Engine α} (h : e.bare = f.bare) (ops : List (Operation α)) :
    (e.outcomes ops).map Outcome.bare = (f.outcomes ops).map Outcome.bare := by
  induction ops generalizing e f with
  | nil => rfl
  | cons op ops ih =>
    have hop := perform_bare_congr h op
    have hengine : (e.perform op).engine.bare = (f.perform op).engine.bare :=
      congrArg Outcome.engine hop
    simp only [outcomes, List.map_cons, hop, ih hengine]

theorem script?_of_load {e : Engine α} {s : Script} (h : (e.load s).result = .ok ()) :
    (e.load s).engine.playback.script? = some s := by
  simp only [load, broadcast_result, broadcast_playback, Playback.load] at h ⊢
  split at h
  · cases h
  · simp [Playback.arrive]

/-- Blank texts, absent speakers, notes and metadata make no difference to anything that can be
asked of an engine later, but for the script itself. -/
theorem bare_scripts_play_alike (id : Nat) (history : List (Operation α)) {s t : Script}
    (same : s.bare = t.bare) (later : List (Operation α)) :
    let e := (Engine.new id).run history
    let xs := e.outcomes (.load s :: later)
    let ys := e.outcomes (.load t :: later)
    xs.map Outcome.observation = ys.map Outcome.observation ∧
      (∀ n, xs.map (fun o => recordedBy n o.calls) = ys.map fun o => recordedBy n o.calls) ∧
      ((e.load s).result = .ok () → (e.load s).engine.playback.script? = some s ∧
        (e.load t).engine.playback.script? = some t) := by
  intro e xs ys
  have hload : (e.load s).bare = (e.load t).bare := by
    have hturn : (e.playback.load s).bare = (e.playback.load t).bare := by
      rw [← Playback.load_bare, ← Playback.load_bare, same]
    exact broadcast_bare_congr rfl hturn
  have hlater := outcomes_bare_congr (congrArg Outcome.engine hload) later
  have hobserved : xs.map Outcome.observation = ys.map Outcome.observation :=
    observations_of_bare (congrArg₂ List.cons hload hlater)
  refine ⟨hobserved, ?_, ?_⟩
  · intro n
    have htold := congrArg (List.map fun o : Observation α =>
      (o.told.filter (·.subscriber.id = n)).map fun t => t.answers.entry t.event) hobserved
    simpa only [List.map_map, Function.comp_def, Outcome.observation, ← recordedBy_eq_told]
      using htold
  · intro loads
    have hresult : (e.load s).result = (e.load t).result :=
      (congrArg Outcome.result hload :)
    exact ⟨script?_of_load loads, script?_of_load (hresult ▸ loads)⟩

/-- A draft with blank fields and notes, and its fair copy: a choice without a jump leads on, in the
one as in the other. -/
theorem draft_plays_as_copy :
    let draft : Script := {
      lines := [
        { text := "Halt!", label := some " ", notes := some "first draft",
          choices := [{ text := "Pay", jump := some "", message := some "paid" }] },
        { text := "Pass.", message := some "\t" }]
      ending := ⟨some " "⟩
      metadata := some (.list []) }
    let copy : Script := {
      lines := [
        { text := "Halt!", speaker := some "",
          choices := [{ text := "Pay", message := some "paid" }] },
        { text := "Pass." }] }
    let e : Engine Unit := (Engine.new 0).run [.subscribe .all ()]
    let later : List (Operation Unit) := [.choose 0, .choose 0, .advanceMain]
    draft.bare = copy.bare ∧ draft.lines ≠ copy.lines ∧
      (e.outcomes (.load draft :: later)).map Outcome.observation =
        (e.outcomes (.load copy :: later)).map Outcome.observation ∧
      (e.outcomes (.load draft :: later)).map (fun o => recordedBy 1 o.calls) =
        [[.line "" "Halt!" ["Pay"]], [.line "" "Pass." [], .message "paid"], [],
          [.cleared, .finished]] := by
  intro draft copy e later
  have same : draft.bare = copy.bare := by rfl
  have alike := bare_scripts_play_alike 0 [.subscribe .all ()] same later
  have copied : (e.outcomes (.load copy :: later)).map (fun o => recordedBy 1 o.calls) =
      [[.line "" "Halt!" ["Pay"]], [.line "" "Pass." [], .message "paid"], [],
        [.cleared, .finished]] := by decide +kernel
  exact ⟨same, by decide, alike.1, (alike.2.1 1).trans copied⟩

end Engine

end Dialogue
