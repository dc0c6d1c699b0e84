import Dialogue.Playback

/-!
# Engines

An engine is a playback with subscribers. Every event goes to all subscribers that listen to its
kind, in the order of their subscription, before the next event is announced. Subscriptions are
numbered from one, and no number is used twice.
-/
namespace Dialogue

/-- The kinds of events a subscriber listens to. -/
inductive Channel where
  | all
  | lineUpdate
  | finished
  | message
  deriving DecidableEq, Repr

def Channel.hears : Channel → Event → Bool
  | .all, _ => true
  | .lineUpdate, .lineUpdate => true
  | .finished, .finished => true
  | .message, .message _ => true
  | _, _ => false

structure Subscriber (α : Type) where
  id : Nat
  channel : Channel
  handler : α
  deriving Repr

structure Engine (α : Type) where
  playback : Playback
  subscribers : List (Subscriber α) := []
  issued : Nat := 0

/-- A handler called for an event, and the engine as the handler sees it: while an event is
delivered the engine has no subscribers. -/
structure Call (α : Type) where
  subscriber : Subscriber α
  event : Event
  seen : Engine α

structure Outcome (α : Type) where
  engine : Engine α
  calls : List (Call α)
  result : Except EngineError Unit

namespace Engine

variable {α : Type}

def new (id : Nat) : Engine α := { playback := .new id }

def subscribe (e : Engine α) (channel : Channel) (handler : α) : Engine α :=
  { e with
    subscribers := e.subscribers ++ [⟨e.issued + 1, channel, handler⟩], issued := e.issued + 1 }

/-- Removes the subscription of that number, if there is one. -/
def unsubscribe (e : Engine α) (id : Nat) : Engine α :=
  { e with subscribers := e.subscribers.filter (·.id ≠ id) }

def subscribed (e : Engine α) (id : Nat) : Bool := e.subscribers.any (·.id = id)

def deliver (e : Engine α) (m : Moment) : List (Call α) :=
  (e.subscribers.filter (·.channel.hears m.event)).map
    (⟨·, m.event, { e with playback := m.seen, subscribers := [] }⟩)

def broadcast (e : Engine α) (t : Turn) : Outcome α :=
  ⟨{ e with playback := t.playback }, t.moments.flatMap e.deliver, t.result⟩

def load (e : Engine α) (s : Script) : Outcome α := e.broadcast (e.playback.load s)
def loadText (e : Engine α) (source : String) : Outcome α :=
  e.broadcast (e.playback.loadText source)
def advance (e : Engine α) (c : Cursor) : Outcome α := e.broadcast (e.playback.advance c)
def advanceMain (e : Engine α) : Outcome α := e.broadcast e.playback.advanceMain
def choose (e : Engine α) (k : Nat) : Outcome α := e.broadcast (e.playback.choose k)
def select (e : Engine α) (s : Selection) : Outcome α := e.broadcast (e.playback.select s)
def reset (e : Engine α) : Engine α := { e with playback := e.playback.reset }

/-- A new engine that plays a document. -/
def create (id : Nat) (source : String) : Except EngineError (Engine α) :=
  let o := (Engine.new id).loadText source
  o.result.map fun _ => o.engine

def indexText : Option Nat → String
  | none => "None"
  | some i => "Some(" ++ toString i ++ ")"

/-- A one-line account of the state; the identity of the engine is not told. -/
def summary (e : Engine α) : String :=
  let p := e.playback
  "DialogueEngine \x7b instance_id: _, line_count: " ++ toString p.lineCount ++
    ", current_index: " ++ indexText p.index? ++ ", epoch: " ++ toString p.epoch ++
    ", subscribers: " ++ toString e.subscribers.length ++ ", .. \x7d"

@[simp] theorem broadcast_subscribers (e : Engine α) (t : Turn) :
    (e.broadcast t).engine.subscribers = e.subscribers := rfl

@[simp] theorem broadcast_playback (e : Engine α) (t : Turn) :
    (e.broadcast t).engine.playback = t.playback := rfl

@[simp] theorem broadcast_result (e : Engine α) (t : Turn) :
    (e.broadcast t).result = t.result := rfl

@[simp] theorem subscribe_playback (e : Engine α) (channel : Channel) (handler : α) :
    (e.subscribe channel handler).playback = e.playback := rfl

@[simp] theorem unsubscribe_playback (e : Engine α) (id : Nat) :
    (e.unsubscribe id).playback = e.playback := rfl

theorem subscribed_unsubscribe (e : Engine α) (id : Nat) :
    (e.unsubscribe id).subscribed id = false := by
  simp [unsubscribe, subscribed]

theorem mem_deliver {e : Engine α} {m : Moment} {c : Call α} :
    c ∈ e.deliver m ↔ ∃ s ∈ e.subscribers, s.channel.hears m.event ∧
      c = ⟨s, m.event, { e with playback := m.seen, subscribers := [] }⟩ := by
  simp only [deliver, List.mem_map, List.mem_filter]
  constructor
  · rintro ⟨s, ⟨hs, hh⟩, rfl⟩
    exact ⟨s, hs, hh, rfl⟩
  · rintro ⟨s, hs, hh, rfl⟩
    exact ⟨s, ⟨hs, hh⟩, rfl⟩

end Engine

end Dialogue
