import Dialogue.CommandLine.Arguments
import Dialogue.CommandLine.Play

/-!
# Executing a command

Arguments that are not well-formed end the program with exit code two and write nothing to the
standard output.
-/
namespace Dialogue.CommandLine

def Command.script : Command → String
  | .run script _ => script
  | .play script _ => script

def Command.finish (c : Command) (src : Source) (input : List UInt8) : Finish :=
  match c with
  | .run _ selections =>
    match runText src.text selections with
    | .error e => e.finish
    | .ok o => ⟨unlines o.lines, 0⟩
  | .play _ player => CommandLine.play src player input

def execute (d : Files.Disk) (args : List String) (input : List UInt8) : Finish :=
  match command? args with
  | none => ⟨"", 2⟩
  | some c =>
    match source d c.script with
    | .error e => e.finish
    | .ok src => c.finish src input

end Dialogue.CommandLine
