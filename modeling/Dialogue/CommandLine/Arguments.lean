import Dialogue.Selection

/-!
# Arguments

A command is `run` or `play` with options that have values. A value follows its option, and then
must not look like an option, or stands behind an equals sign. The log level may be set before and
after the command; every option but a selection is given once at most.
-/
namespace Dialogue.CommandLine

inductive Mode where
  | run
  | play
  deriving DecidableEq, Repr

/-- The options given so far. -/
structure Options where
  logLevel : Option String := none
  script : Option String := none
  player : Option String := none
  selections : List Selection := []
  deriving DecidableEq, Repr

inductive Command where
  | run (script : String) (selections : List Selection)
  | play (script player : String)
  deriving DecidableEq, Repr

def defaultPlayer : String := "Player"

/-- The name of a long option and the value behind its equals sign. -/
def option? (arg : String) : Option (String × Option String) :=
  match arg.toList with
  | '-' :: '-' :: cs =>
    let name := cs.takeWhile (· ≠ '=')
    match cs.dropWhile (· ≠ '=') with
    | [] => some (String.ofList name, none)
    | _ :: value => some (String.ofList name, some (String.ofList value))
  | _ => none

/-- A separate value does not start with a hyphen, unless it is one. -/
def isValue (arg : String) : Bool := arg.toList.head? ≠ some '-' || arg = "-"

def once (old : Option String) (value : String) : Option (Option String) :=
  if old.isSome then none else some (some value)

/-- Sets an option of a command. -/
def Options.set (o : Options) (mode : Mode) (name value : String) : Option Options :=
  if name = "log-level" then (once o.logLevel value).map fun v => { o with logLevel := v }
  else if name = "conversation" then
    (once o.script value).map fun v => { o with script := v }
  else if name = "player-speaker" ∧ mode = .play then
    (once o.player value).map fun v => { o with player := v }
  else if name = "select" ∧ mode = .run then
    (Selection.parse? value).map fun s => { o with selections := o.selections ++ [s] }
  else none

/-- Reads the arguments after the command. -/
def options (mode : Mode) (o : Options) : List String → Option Options
  | [] => some o
  | ["--"] => some o
  | [arg] =>
    match option? arg with
    | some (name, some value) => o.set mode name value
    | _ => none
  | arg :: next :: rest =>
    match option? arg with
    | some (name, some value) => (o.set mode name value).bind fun o => options mode o (next :: rest)
    | some (name, none) =>
      if isValue next then (o.set mode name next).bind fun o => options mode o rest else none
    | none => none

def Options.command (o : Options) : Mode → Option Command
  | .run => o.script.map fun c => .run c o.selections
  | .play => o.script.map fun c => .play c (o.player.getD defaultPlayer)

def mode? (arg : String) : Option Mode :=
  if arg = "run" then some .run else if arg = "play" then some .play else none

def commandFrom (args : List String) : Option Command :=
  match args with
  | [] => none
  | arg :: rest => (mode? arg).bind fun mode => (options mode {} rest).bind (·.command mode)

/-- The command that the arguments give, if they are well-formed. -/
def command? (args : List String) : Option Command :=
  match args with
  | [] => none
  | arg :: rest =>
    match option? arg with
    | some ("log-level", some _) => commandFrom rest
    | some ("log-level", none) =>
      match rest with
      | value :: rest => if isValue value then commandFrom rest else none
      | [] => none
    | some _ => none
    | none => commandFrom args

end Dialogue.CommandLine
