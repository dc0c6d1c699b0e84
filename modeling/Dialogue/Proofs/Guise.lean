import Dialogue.Proofs.Run
import Dialogue.Transcript

/-!
# Guises

The same play can be given in another guise: under other stamps, with other labels, or without what
does not count in a script. A guise says how playbacks, lines, cursors and errors look in it, and
which answers it has to leave alone for this. All that is asked of a playback in a guise then comes
to the same, in that guise.
-/
namespace Dialogue

/-- The same lines, cursor by cursor. -/
def CurrentLine.map (f : Cursor → Cursor) (l : CurrentLine) : CurrentLine :=
  ⟨f l.main, l.choices.map f⟩

theorem CurrentLine.cursor?_map (f : Cursor → Cursor) (l : CurrentLine) (slot : Slot) :
    (l.map f).cursor? slot = (l.cursor? slot).map f := by
  cases slot with
  | main => rfl
  | choice k => simp [map, cursor?]

theorem mapError_error {β : Type} (f : EngineError → EngineError) (e : EngineError) :
    (Except.error e : Except EngineError β).mapError f = .error (f e) := rfl

theorem mapError_ok {β : Type} (f : EngineError → EngineError) (x : β) :
    (Except.ok x).mapError f = .ok x := rfl

theorem mapError_id {β : Type} (result : Except EngineError β) : result.mapError id = result := by
  cases result <;> rfl

/-- How errors look in a guise: those that name no label look as they are. -/
structure Wording where
  error : EngineError → EngineError
  stale : ∀ i, error (.staleCursor i) = .staleCursor i
  idle : error .notActive = .notActive
  outOfRange : ∀ k n, error (.choiceOutOfRange k n) = .choiceOutOfRange k n

/-- All errors look as they are. -/
def Wording.plain : Wording := ⟨id, fun _ => rfl, rfl, fun _ _ => rfl⟩

theorem Playback.target_plain (p : Playback) (i : Nat) (c : Cursor) :
    p.target i c.jump = (p.target i c.jump).mapError Wording.plain.error :=
  (mapError_id _).symm

/-- The playback with something else on show. -/
def Playback.showing (p : Playback) (i? : Option Nat) (c? : Option Cursor) (cs : List Cursor) :
    Playback :=
  { p with index? := i?, main? := c?, choices := cs }

/-- How things look in a guise, in which what is on show, the cursors and their targets answer to
one another. -/
structure Guise extends Wording where
  playback : Playback → Playback
  line : Line → Line
  cursor : Cursor → Cursor
  shows : ∀ p i? c? cs,
    playback (p.showing i? c? cs) = (playback p).showing i? (c?.map cursor) (cs.map cursor)
  invalidate : ∀ p, (playback p).invalidate = playback p.invalidate
  issue : ∀ p i l, (playback p).issue i (line l) = (p.issue i l).map cursor
  line? : ∀ p i, (playback p).line? i = (p.line? i).map line
  speaker : ∀ l, (line l).speakerName = l.speakerName
  message : ∀ l, (line l).message? = l.message?
  ending : ∀ p, Text.present? ((playback p).script?.bind (·.ending.message)) =
    Text.present? (p.script?.bind (·.ending.message))
  text : ∀ c, (cursor c).text = c.text
  parting : ∀ c, (cursor c).message = c.message
  origin : ∀ c, (cursor c).origin = c.origin
  accepts : ∀ p c, (playback p).accepts (cursor c) = p.accepts c
  target : ∀ p i c, (playback p).target i (cursor c).jump = (p.target i c.jump).mapError error

namespace Guise

variable {α : Type} (g : Guise)

def moment (m : Moment) : Moment := { m with seen := g.playback m.seen }

def turn (t : Turn) : Turn :=
  ⟨g.playback t.playback, t.moments.map g.moment, t.result.mapError g.error⟩

def engine (e : Engine α) : Engine α := { e with playback := g.playback e.playback }

def call (c : Call α) : Call α := { c with seen := g.engine c.seen }

def outcome (o : Outcome α) : Outcome α :=
  ⟨g.engine o.engine, o.calls.map g.call, o.result.mapError g.error⟩

end Guise

namespace Playback

theorem announce_congr (p : Playback) {m n : Option String}
    (h : Text.present? m = Text.present? n) : p.announce m = p.announce n := by
  simp only [announce, h]

variable (g : Guise) (p : Playback)

theorem eq_showing_guise :
    g.playback p = (g.playback p).showing p.index? (p.main?.map g.cursor) (p.choices.map g.cursor) :=
  g.shows p p.index? p.main? p.choices

theorem index?_guise : (g.playback p).index? = p.index? :=
  (congrArg index? (eq_showing_guise g p) :)

theorem current_guise : (g.playback p).current = p.current.map (·.map g.cursor) := by
  have hmain : (g.playback p).main? = p.main?.map g.cursor := congrArg main? (eq_showing_guise g p)
  have hchoices : (g.playback p).choices = p.choices.map g.cursor :=
    congrArg choices (eq_showing_guise g p)
  simp only [current, index?_guise, hmain, hchoices]
  cases p.index? <;> cases p.main? <;> rfl

theorem speaker?_guise : (g.playback p).speaker? = p.speaker? := by
  simp only [speaker?, index?_guise, g.line?, Option.map_map, Function.comp_def, g.speaker]

theorem entry_guise (event : Event) : (g.playback p).entry event = p.entry event := by
  cases event with
  | lineUpdate =>
    simp only [entry, current_guise, speaker?_guise]
    cases p.current with
    | none => rfl
    | some l =>
      simp only [Option.map_some, CurrentLine.map, CurrentLine.texts, List.map_map,
        Function.comp_def, g.text]
  | finished => rfl
  | message text => rfl

theorem place_guise (i : Nat) : (g.playback p).place i = g.playback (p.place i) := by
  cases h : p.line? i with
  | none =>
    have hline : (g.playback p).line? i = none := by rw [g.line?, h, Option.map_none]
    have hshows := g.shows p.invalidate none none []
    rw [← g.invalidate] at hshows
    rw [place_of_none h, place_of_none hline]
    exact hshows.symm
  | some l =>
    have hline : (g.playback p).line? i = some (g.line l) := by rw [g.line?, h, Option.map_some]
    have hshows := g.shows p.invalidate (some i) (p.invalidate.issue i l).main
      (p.invalidate.issue i l).choices
    rw [place_of_some h, place_of_some hline, g.invalidate, g.issue]
    exact hshows.symm

theorem announce_guise (message : Option String) :
    (g.playback p).announce message = (p.announce message).map g.moment :=
  announce_map g.playback p message

theorem arrival_guise (l : Option Line) :
    (g.playback p).arrival (l.map g.line) = (p.arrival l).map g.moment := by
  cases l with
  | some l =>
    have hmessage := announce_congr (g.playback p) (g.message l)
    simp only [Option.map_some, arrival, List.map_cons, hmessage, announce_guise]
    rfl
  | none =>
    have hending := announce_congr (g.playback p) (g.ending p)
    simp only [Option.map_none, arrival, List.map_cons, hending, announce_guise]
    rfl

theorem arrive_guise (i : Nat) :
    (g.playback p).arrive i = (g.playback (p.arrive i).1, (p.arrive i).2.map g.moment) := by
  simp only [arrive, place_guise, g.line?, arrival_guise]

theorem refuse_guise {e : EngineError} (h : g.error e = e) :
    (g.playback p).refuse e = g.turn (p.refuse e) := by
  simp only [refuse, Guise.turn, mapError_error, h, List.map_nil]

theorem advance_guise (c : Cursor) : (g.playback p).advance (g.cursor c) = g.turn (p.advance c) := by
  unfold advance
  rw [g.accepts, g.origin, g.target, g.parting]
  split
  · cases p.target c.origin c.jump with
    | error e => rfl
    | ok i =>
      simp only [mapError_ok, arrive_guise, announce_guise, Guise.turn, List.map_append]
  · exact refuse_guise g p (g.stale c.origin)

theorem advanceMain_guise : (g.playback p).advanceMain = g.turn p.advanceMain := by
  simp only [advanceMain, current_guise]
  cases p.current with
  | none => exact refuse_guise g p g.idle
  | some l => exact advance_guise g p l.main

theorem choose_guise (k : Nat) : (g.playback p).choose k = g.turn (p.choose k) := by
  simp only [choose, current_guise]
  cases p.current with
  | none => exact refuse_guise g p g.idle
  | some l =>
    simp only [Option.map_some, CurrentLine.map, List.getElem?_map, List.length_map]
    cases l.choices[k]? with
    | none => exact refuse_guise g p (g.outOfRange k l.choices.length)
    | some c => exact advance_guise g p c

theorem select_guise (x : Selection) : (g.playback p).select x = g.turn (p.select x) := by
  cases x with
  | main => exact advanceMain_guise g p
  | choice k => exact choose_guise g p k.toNat

/-- A script is loaded in a guise if it is that script in the guise that is loaded, with its table. -/
theorem load_guise {p q : Playback} {s t : Script} {table : LabelTable → LabelTable}
    (hreset : q.reset = g.playback p.reset)
    (htable : LabelTable.ofScript t = ((LabelTable.ofScript s).map table).mapError g.error)
    (hcue : ∀ labels, q.cue t (table labels) = g.playback (p.cue s labels)) :
    q.load t = g.turn (p.load s) := by
  unfold load
  rw [htable]
  cases LabelTable.ofScript s with
  | error e => simp only [Except.map, mapError_error, Guise.turn, hreset, List.map_nil]
  | ok labels =>
    have hcue : ({ q.reset with script? := some t, labels := table labels } : Playback) =
        g.playback { p.reset with script? := some s, labels := labels } := hcue labels
    simp only [Except.map, mapError_ok, hcue, arrive_guise]
    rfl

end Playback

namespace Engine

variable {α : Type} (g : Guise) (e : Engine α)

theorem broadcast_guise {s t : Turn} (h : s = g.turn t) :
    (g.engine e).broadcast s = g.outcome (e.broadcast t) := by
  have hcalls : (t.moments.map g.moment).flatMap (g.engine e).deliver =
      (t.moments.flatMap e.deliver).map g.call :=
    flatMap_deliver_map g.playback e t.moments
  simp only [h, broadcast, Guise.turn, Guise.outcome, hcalls]
  rfl

theorem advance_guise (c : Cursor) :
    (g.engine e).advance (g.cursor c) = g.outcome (e.advance c) :=
  broadcast_guise g e (Playback.advance_guise g e.playback c)

end Engine

end Dialogue
