import Dialogue.Cursor
import Dialogue.Event
import Dialogue.Labels
import Dialogue.Script.Json
import Dialogue.Selection

/-!
# Playing a script

A playback shows one line of its script at a time. Moving on resolves the jump of a cursor first
and changes nothing if that fails; then all cursors issued so far become stale, the next line or
the end is shown, and the events are announced in order, each with the state in which it is
announced.
-/
namespace Dialogue

/-- The state of a playback: the script and the lines its labels stand for, which of the lines is on
show, and the cursors of that line. The epoch counts how often the cursors became stale. -/
structure Playback where
  id : Nat
  epoch : Nat := 0
  script? : Option Script := none
  labels : LabelTable := {}
  index? : Option Nat := none
  main? : Option Cursor := none
  choices : List Cursor := []
  deriving Repr

/-- An event, and the state in which it is announced. -/
structure Moment where
  event : Event
  seen : Playback
  deriving Repr

/-- What an operation leaves behind, what it announces, and whether it went through. -/
structure Turn where
  playback : Playback
  moments : List Moment
  result : Except EngineError Unit

namespace Playback

/-- A playback of nothing. -/
def new (id : Nat) : Playback := { id := id }

def lineCount (p : Playback) : Nat := (p.script?.map Script.lineCount).getD 0
def line? (p : Playback) (i : Nat) : Option Line := p.script?.bind (·.line? i)
def active (p : Playback) : Bool := p.index?.isSome

/-- Nothing when no line is on show, and the empty name for a line nobody speaks. -/
def speaker? (p : Playback) : Option String :=
  p.index?.bind fun i => (p.line? i).map (·.speakerName)

/-- The cursors of the line on show, if there is one. -/
def current (p : Playback) : Option CurrentLine :=
  match p.index?, p.main? with
  | some _, some main => some ⟨main, p.choices⟩
  | _, _ => none

def stamp (p : Playback) : Stamp := ⟨p.id, p.epoch⟩

/-- Whether a cursor was issued for the line on show. -/
def accepts (p : Playback) (c : Cursor) : Bool := p.index? = some c.origin ∧ c.stamp = p.stamp

/-- The cursors of line `i`. A line's own message belongs to its arrival, not to its main exit. -/
def issue (p : Playback) (i : Nat) (l : Line) : CurrentLine where
  main := ⟨p.stamp, .main, i, l.text, l.jump?, none⟩
  choices := l.choices.mapIdx fun k c => ⟨p.stamp, .choice k, i, c.text, c.jump?, c.message?⟩

/-- Makes all cursors stale. -/
def invalidate (p : Playback) : Playback :=
  { p with epoch := p.epoch + 1, main? := none, choices := [] }

def reset (p : Playback) : Playback :=
  { p.invalidate with script? := none, labels := {}, index? := none }

/-- A message is announced unless it is absent or blank. -/
def announce (p : Playback) (message : Option String) : List Moment :=
  match Text.present? message with
  | none => []
  | some text => [⟨.message text, p⟩]

/-- The state in which line `i` is on show, or nothing if there is no such line. -/
def place (p : Playback) (i : Nat) : Playback :=
  match p.line? i with
  | none => { p.invalidate with index? := none }
  | some l =>
    let shown := p.invalidate.issue i l
    { p.invalidate with index? := some i, main? := some shown.main, choices := shown.choices }

/-- What is announced when a line, or the end, has come on show. -/
def arrival (p : Playback) : Option Line → List Moment
  | some l => ⟨.lineUpdate, p⟩ :: p.announce l.message
  | none => ⟨.lineUpdate, p⟩ :: ⟨.finished, p⟩ :: p.announce (p.script?.bind (·.ending.message))

/-- Shows line `i`, or the end if there is no such line. -/
def arrive (p : Playback) (i : Nat) : Playback × List Moment :=
  (p.place i, (p.place i).arrival (p.line? i))

/-- Abandons what is playing and starts the script at its first line. -/
def load (p : Playback) (s : Script) : Turn :=
  match LabelTable.ofScript s with
  | .error e => ⟨p.reset, [], .error e⟩
  | .ok labels =>
    let r := { p.reset with script? := some s, labels := labels }.arrive 0
    ⟨r.1, r.2, .ok ()⟩

/-- Abandons what is playing before the document is read. -/
def loadText (p : Playback) (source : String) : Turn :=
  match Script.parse source with
  | .error f => ⟨p.reset, [], .error (.parse f)⟩
  | .ok s => p.reset.load s

/-- Where a jump from line `origin` leads. -/
def target (p : Playback) (origin : Nat) (jump : Option String) : Except EngineError Nat :=
  match Text.present? jump with
  | none => .ok (origin + 1)
  | some label =>
    match p.labels.find? label with
    | some i => .ok i
    | none => .error (.unresolvedJump label origin)

def refuse (p : Playback) (e : EngineError) : Turn := ⟨p, [], .error e⟩

def advance (p : Playback) (c : Cursor) : Turn :=
  if p.accepts c then
    match p.target c.origin c.jump with
    | .error e => p.refuse e
    | .ok i =>
      let r := p.arrive i
      ⟨r.1, r.2 ++ r.1.announce c.message, .ok ()⟩
  else p.refuse (.staleCursor c.origin)

def advanceMain (p : Playback) : Turn :=
  match p.current with
  | none => p.refuse .notActive
  | some l => p.advance l.main

def choose (p : Playback) (k : Nat) : Turn :=
  match p.current with
  | none => p.refuse .notActive
  | some l =>
    match l.choices[k]? with
    | none => p.refuse (.choiceOutOfRange k l.choices.length)
    | some c => p.advance c

def select (p : Playback) : Selection → Turn
  | .main => p.advanceMain
  | .choice k => p.choose k.toNat

@[simp] theorem invalidate_epoch (p : Playback) : p.invalidate.epoch = p.epoch + 1 := rfl

@[simp] theorem reset_epoch (p : Playback) : p.reset.epoch = p.epoch + 1 := rfl

theorem place_of_none {p : Playback} {i : Nat} (h : p.line? i = none) :
    p.place i = { p.invalidate with index? := none } := by simp [place, h]

theorem place_of_some {p : Playback} {i : Nat} {l : Line} (h : p.line? i = some l) :
    p.place i = { p.invalidate with
      index? := some i
      main? := some (p.invalidate.issue i l).main
      choices := (p.invalidate.issue i l).choices } := by simp [place, h]

@[simp] theorem place_epoch (p : Playback) (i : Nat) : (p.place i).epoch = p.epoch + 1 := by
  cases h : p.line? i <;> simp [place, h]

@[simp] theorem place_id (p : Playback) (i : Nat) : (p.place i).id = p.id := by
  cases h : p.line? i <;> simp [place, h, invalidate]

@[simp] theorem place_script? (p : Playback) (i : Nat) : (p.place i).script? = p.script? := by
  cases h : p.line? i <;> simp [place, h, invalidate]

@[simp] theorem place_labels (p : Playback) (i : Nat) : (p.place i).labels = p.labels := by
  cases h : p.line? i <;> simp [place, h, invalidate]

theorem seen_of_mem_announce {p : Playback} {message : Option String} {m : Moment}
    (h : m ∈ p.announce message) : m.seen = p := by
  unfold announce at h
  split at h
  · cases h
  · rw [List.mem_singleton.mp h]

theorem seen_of_mem_arrival {p : Playback} {l : Option Line} {m : Moment} (h : m ∈ p.arrival l) :
    m.seen = p := by
  cases l with
  | none =>
    rcases List.mem_cons.mp h with rfl | h
    · rfl
    rcases List.mem_cons.mp h with rfl | h
    · rfl
    · exact seen_of_mem_announce h
  | some l =>
    rcases List.mem_cons.mp h with rfl | h
    · rfl
    · exact seen_of_mem_announce h

theorem not_active_place_of_none {p : Playback} {i : Nat} (h : p.line? i = none) :
    (p.place i).active = false := by
  simp [place_of_none h, active]

theorem index?_place_of_some {p : Playback} {i : Nat} {l : Line} (h : p.line? i = some l) :
    (p.place i).index? = some i := by
  simp [place_of_some h]

end Playback

end Dialogue
