import Dialogue.CommandLine.Report
import Dialogue.CommandLine.Source

/-!
# Playing at the prompt

A session shows what has been announced, asks for a line of input while a line of the script is on
show, and does what the input says. Input that cannot be followed is answered by a notice and
changes nothing.
-/
namespace Dialogue.CommandLine

/-- The text written so far and the exit code of a command that has finished. -/
structure Finish where
  output : String
  exit : Nat
  deriving DecidableEq, Repr

def unlines (lines : List String) : String := String.join (lines.map (· ++ "\n"))

def CommandError.finish (e : CommandError) : Finish := ⟨unlines e.lines, 1⟩

def Finish.after (f : Finish) (output : String) : Finish := { f with output := output ++ f.output }

/-- The texts of a session that do not come from the script. -/
structure Settings where
  title : String
  path : String
  source : String
  player : String
  deriving DecidableEq, Repr

/-- A playback, and what it has announced and nobody has been shown. -/
structure Session where
  playback : Playback
  pending : List Entry

def helpLine : String :=
  "commands: :help :restart :quit  (enter = continue, number = choose option)"

def lineWidth : Nat := 64

/-- A speech stands on the left, the player's own on the right. -/
def speech (player speaker text : String) : String :=
  if speaker = "" then "  " ++ text
  else if speaker = player then
    let s := text ++ " :" ++ speaker
    String.ofList (Decimal.padLeft lineWidth ' ' s.toList)
  else speaker ++ ": " ++ text

def shownLines (player : String) : Entry → List String
  | .line speaker text choices =>
    "" :: speech player speaker text ::
      choices.mapIdx fun k c => "  [" ++ toString k ++ "] " ++ c
  | .message text => ["  * " ++ text]
  | .cleared => []
  | .finished => ["", "[END]"]

/-- Shows all that is pending. -/
def Session.show (s : Session) (player : String) : Session × String :=
  ({ s with pending := [] }, unlines (s.pending.flatMap (shownLines player)))

def Session.take (s : Session) (t : Turn) : Session := ⟨t.playback, s.pending ++ t.entries⟩

/-- What an input asks for. -/
inductive Input where
  | help
  | restart
  | quit
  | onward
  | number (index : UInt64)
  | unknown (text : String)
  deriving DecidableEq, Repr

def Input.ofText (raw : String) : Input :=
  let t := Text.trim raw
  if t = ":help" then .help
  else if t = ":restart" then .restart
  else if t = ":quit" then .quit
  else if t = "" then .onward
  else
    match Text.index? t with
    | some k => .number k
    | none => .unknown t

/-- What follows an input: a notice, a turn of the playback, or the end of the session. -/
inductive Reaction where
  | notice (text : String)
  | turn (t : Turn)
  | restarted (t : Turn)
  | refused (e : EngineError)
  | stopped

/-- A turn that failed is told to the player. -/
def Reaction.ofTurn (t : Turn) : Reaction :=
  match t.result with
  | .ok () => .turn t
  | .error e => .notice e.message

def react (source : String) (p : Playback) : Input → Reaction
  | .help => .notice helpLine
  | .quit => .stopped
  | .restart =>
    let t := p.loadText source
    match t.result with
    | .ok () => .restarted t
    | .error e => .refused e
  | .onward =>
    match p.current with
    | none => .notice "conversation has ended"
    | some l =>
      if l.branches then .notice ("choose an option: 0.." ++ toString (l.choices.length - 1))
      else .ofTurn (p.advance l.main)
  | .number k => .ofTurn (p.choose k.toNat)
  | .unknown t => .notice ("unknown input \"" ++ t ++ "\", try :help")

/-- The lines of some bytes, each with the line feed that ends it. -/
def byteLines : List UInt8 → List (List UInt8)
  | [] => []
  | b :: bs =>
    if b = 10 then [b] :: byteLines bs
    else match byteLines bs with
      | [] => [[b]]
      | l :: ls => (b :: l) :: ls

/-- Splitting loses nothing. -/
theorem flatten_byteLines (bs : List UInt8) : (byteLines bs).flatten = bs := by
  induction bs with
  | nil => rfl
  | cons b bs ih =>
    unfold byteLines
    split
    · simp [ih]
    · split <;> simp_all

/-- What becomes of a session after a line of input. -/
inductive Next where
  | prompt (s : Session)
  | exit (code : Nat)

/-- Follows a line of input: what is written, and how the session goes on. -/
def answer (g : Settings) (s : Session) (bytes : List UInt8) : String × Next :=
  match Files.Disk.decode bytes with
  | .error e => (unlines (CommandError.input e).lines, .exit 1)
  | .ok raw =>
    match react g.source s.playback (.ofText raw) with
    | .notice text => (text ++ "\n", .prompt s)
    | .stopped => ("bye\n", .exit 0)
    | .refused e => (unlines (CommandError.engine e).lines, .exit 1)
    | .restarted t =>
      let r := (s.take t).show g.player
      ("restarted: " ++ g.path ++ "\n" ++ r.2, .prompt r.1)
    | .turn t =>
      let r := (s.take t).show g.player
      (r.2, .prompt r.1)

def promptText : String := "> "

/-- The session from the next prompt on, given the lines of input left. -/
def converse (g : Settings) : List (List UInt8) → Session → Finish
  | [], s => if s.playback.active then ⟨promptText ++ "\n", 0⟩ else ⟨"", 0⟩
  | bytes :: rest, s =>
    if s.playback.active then
      match answer g s bytes with
      | (output, .exit code) => ⟨promptText ++ output, code⟩
      | (output, .prompt t) => (converse g rest t).after (promptText ++ output)
    else ⟨"", 0⟩

/-- The session of a script that has just been loaded, and what it shows first. -/
def opening (g : Settings) (t : Turn) : Session × String :=
  let r := (Session.take ⟨t.playback, []⟩ t).show g.player
  (r.1, unlines ["== " ++ g.title ++ " ==", helpLine] ++ r.2)

def play (src : Source) (player : String) (input : List UInt8) : Finish :=
  let g : Settings := ⟨src.title, src.path, src.text, player⟩
  let t := (Playback.new 0).loadText src.text
  match t.result with
  | .error e => (CommandError.engine e).finish
  | .ok () => (converse g (byteLines input) (opening g t).1).after (opening g t).2

end Dialogue.CommandLine
