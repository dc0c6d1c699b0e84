import Dialogue.Engine
import Dialogue.Table
import Dialogue.Transcript

/-!
# Several engines side by side

A stage holds engines in numbered slots, and lines, subscriptions and transcripts under names that
all engines share, so that a cursor or a subscription of one engine can be handed to another. It
carries out one command at a time and returns the answer and what the handlers noted.
-/
namespace Dialogue

namespace Stage

/-- What a handler does with the events it hears. -/
inductive Watch where
  | everything
  | probe
  | line
  | finished
  | message
  | capture
  | record
  deriving DecidableEq, Repr

def Watch.channel : Watch → Channel
  | .everything | .probe | .record => .all
  | .line | .capture => .lineUpdate
  | .finished => .finished
  | .message => .message

/-- A handler by its name, and by a number of its own, for names may be used again. -/
structure Handler where
  name : String
  watch : Watch
  number : Nat
  deriving DecidableEq, Repr

/-- What a handler writes down when it is called. -/
inductive Note where
  | heard (name : String) (event : Event) (entry : Entry)
  | probed (name : String) (event : Event) (seen : Playback) (subscribers : Nat)
  | line (name : String) (index : Option Nat) (speaker : Option String)
  | finished (name : String) (active : Bool)
  | message (name text : String) (index : Option Nat)
  | captured (name : String) (count : Nat) (valid : Option Bool)

inductive Command where
  | new
  | create (source : String)
  | load (source : String)
  | loadParsed (source : String)
  | loadTexts (lines : List (String × List String))
  | reset
  | advanceMain
  | choose (index : Nat)
  | select (text : String)
  | grab (name : String)
  | look (name : String)
  | advance (name : String) (slot : Slot)
  | accepts (name : String) (slot : Slot)
  | same (name other : String)
  | subscribe (watch : Watch) (name : String)
  | unsubscribe (name : String)
  | entries (name : String)
  | drain (name : String)
  | length (name : String)
  | summary
  | script
  deriving Repr

/-- A cursor, and whether the engine that was asked accepts it. -/
structure CursorView where
  cursor : Cursor
  accepted : Bool
  deriving DecidableEq, Repr

structure LineView where
  main : CursorView
  choices : List CursorView
  deriving DecidableEq, Repr

inductive Answer where
  | done (result : Except EngineError Unit)
  | badSelection (text : String)
  | missing
  | flag (b : Bool)
  | count (n : Nat)
  | length (n : Nat) (empty : Bool)
  | removed (found : Bool) (subscribers : Nat)
  | view (line : Option LineView)
  | entries (es : List Entry)
  | text (s : String)
  | script (s : Option Script)

end Stage

open Stage in
structure Stage where
  engines : Table Nat (Engine Handler)
  lines : Table String CurrentLine := {}
  subscriptions : Table String Nat := {}
  transcripts : Table String Nat := {}
  recorded : Table Nat (List Entry) := {}
  captures : Table Nat Nat := {}
  nextEngine : Nat := 1
  nextHandler : Nat := 0

namespace Stage

/-- One new engine in slot zero. -/
def initial : Stage := { engines := ⟨[(0, Engine.new 0)]⟩ }

def view (p : Playback) (l : CurrentLine) : LineView where
  main := ⟨l.main, p.accepts l.main⟩
  choices := l.choices.map fun c => ⟨c, p.accepts c⟩

/-- The name under which a capturing handler stores the line of its update number `k`. -/
def captureName (name : String) (k : Nat) : String := name ++ "." ++ toString k

/-- Runs the handler of a call. -/
def hear (s : Stage) (c : Call Handler) : Stage × List Note :=
  let h := c.subscriber.handler
  let p := c.seen.playback
  match h.watch, c.event with
  | .everything, event => (s, [.heard h.name event (p.entry event)])
  | .probe, event => (s, [.probed h.name event p c.seen.subscribers.length])
  | .line, _ => (s, [.line h.name p.index? p.speaker?])
  | .finished, _ => (s, [.finished h.name p.active])
  | .message, .message text => (s, [.message h.name text p.index?])
  | .message, _ => (s, [])
  | .record, event =>
    let es := (s.recorded.find? h.number).getD []
    ({ s with recorded := s.recorded.insert h.number (es ++ [p.entry event]) }, [])
  | .capture, _ =>
    let k := (s.captures.find? h.number).getD 0
    let s := { s with captures := s.captures.insert h.number (k + 1) }
    match p.current with
    | none => (s, [.captured h.name k none])
    | some l =>
      ({ s with lines := s.lines.insert (captureName h.name k) l },
        [.captured h.name k (some (p.accepts l.main))])

def hearAll (s : Stage) : List (Call Handler) → Stage × List Note
  | [] => (s, [])
  | c :: cs =>
    let r := s.hear c
    let t := r.1.hearAll cs
    (t.1, r.2 ++ t.2)

def setEngine (s : Stage) (n : Nat) (e : Engine Handler) : Stage :=
  { s with engines := s.engines.insert n e }

/-- Stores the engine after an operation and runs the handlers it called. -/
def settle (s : Stage) (n : Nat) (o : Outcome Handler) : Stage × Answer × List Note :=
  let r := (s.setEngine n o.engine).hearAll o.calls
  (r.1, .done o.result, r.2)

def silent (s : Stage) (a : Answer) : Stage × Answer × List Note := (s, a, [])

def scriptOfTexts (lines : List (String × List String)) : Script where
  lines := lines.map fun l => { text := l.1, choices := l.2.map fun c => { text := c } }

def cursor? (s : Stage) (name : String) (slot : Slot) : Option Cursor :=
  (s.lines.find? name).bind (·.cursor? slot)

def subscribe (s : Stage) (n : Nat) (e : Engine Handler) (watch : Watch) (name : String) :
    Stage × Answer × List Note :=
  let e := e.subscribe watch.channel ⟨name, watch, s.nextHandler⟩
  let s := { s.setEngine n e with
    subscriptions := s.subscriptions.insert name e.issued, nextHandler := s.nextHandler + 1 }
  let s := if watch = .record then
      { s with
        transcripts := s.transcripts.insert name (s.nextHandler - 1)
        recorded := s.recorded.insert (s.nextHandler - 1) [] }
    else s
  s.silent (.count e.subscribers.length)

def withTranscript (s : Stage) (name : String)
    (f : Nat → List Entry → Stage × Answer × List Note) : Stage × Answer × List Note :=
  match s.transcripts.find? name with
  | none => s.silent .missing
  | some number => f number ((s.recorded.find? number).getD [])

/-- A command to the engine `e` in slot `n`. -/
def obey (s : Stage) (n : Nat) (e : Engine Handler) : Command → Stage × Answer × List Note
  | .new | .create _ => s.silent .missing
  | .load source => s.settle n (e.loadText source)
  | .loadParsed source =>
    match Script.parse source with
    | .error f => s.silent (.done (.error (.parse f)))
    | .ok script => s.settle n (e.load script)
  | .loadTexts lines => s.settle n (e.load (scriptOfTexts lines))
  | .reset => (s.setEngine n e.reset).silent (.done (.ok ()))
  | .advanceMain => s.settle n e.advanceMain
  | .choose index => s.settle n (e.choose index)
  | .select text =>
    match Selection.parse? text with
    | none => s.silent (.badSelection text)
    | some x => s.settle n (e.select x)
  | .grab name =>
    match e.playback.current with
    | none => s.silent (.view none)
    | some l =>
      { s with lines := s.lines.insert name l }.silent (.view (some (view e.playback l)))
  | .look name =>
    match s.lines.find? name with
    | none => s.silent .missing
    | some l => s.silent (.view (some (view e.playback l)))
  | .advance name slot =>
    match s.cursor? name slot with
    | none => s.silent .missing
    | some c => s.settle n (e.advance c)
  | .accepts name slot =>
    match s.cursor? name slot with
    | none => s.silent .missing
    | some c => s.silent (.flag (e.playback.accepts c))
  | .same name other =>
    match s.lines.find? name, s.lines.find? other with
    | some l, some m => s.silent (.flag (l = m))
    | _, _ => s.silent .missing
  | .subscribe watch name => s.subscribe n e watch name
  | .unsubscribe name =>
    match s.subscriptions.find? name with
    | none => s.silent .missing
    | some id =>
      let f := e.unsubscribe id
      (s.setEngine n f).silent (.removed (e.subscribed id) f.subscribers.length)
  | .entries name => s.withTranscript name fun _ es => s.silent (.entries es)
  | .drain name => s.withTranscript name fun number es =>
    { s with recorded := s.recorded.insert number [] }.silent (.entries es)
  | .length name => s.withTranscript name fun _ es => s.silent (.length es.length es.isEmpty)
  | .summary => s.silent (.text e.summary)
  | .script => s.silent (.script e.playback.script?)

def newEngine (s : Stage) (n : Nat) (e : Engine Handler) : Stage :=
  { s with engines := s.engines.insert n e, nextEngine := s.nextEngine + 1 }

/-- A command to slot `n`. -/
def step (s : Stage) (n : Nat) (c : Command) : Stage × Answer × List Note :=
  match c with
  | .new => (s.newEngine n (Engine.new s.nextEngine)).silent (.done (.ok ()))
  | .create source =>
    match Engine.create s.nextEngine source with
    | .error err => { s with nextEngine := s.nextEngine + 1 }.silent (.done (.error err))
    | .ok e => (s.newEngine n e).silent (.done (.ok ()))
  | c =>
    match s.engines.find? n with
    | none => s.silent .missing
    | some e => s.obey n e c

end Stage

end Dialogue
