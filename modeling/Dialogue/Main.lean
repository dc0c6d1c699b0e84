import Dialogue.CommandLine.Execute

/-!
# The program

Reads the part of the file system that a command asks for, and plays at the terminal. All
decisions are made elsewhere.
-/
namespace Dialogue.CommandLine
open Files

/-- The files below an entry; only scripts are read. -/
partial def treeAt (e : IO.FS.DirEntry) : IO Tree := do
  match (← e.path.symlinkMetadata).type with
  | .file =>
    if isScriptName e.fileName then return .file (← IO.FS.readBinFile e.path).toList
    else return .file []
  | .dir =>
    let children := (← e.path.readDir).toList
    return .directory (← children.mapM fun child => do return (child.fileName, ← treeAt child))
  | _ => return .link

/-- What stands at an entry itself. -/
def entryAt (e : IO.FS.DirEntry) : IO (Option Tree) := do
  try
    match (← e.path.metadata).type with
    | .file => return some (.file (← IO.FS.readBinFile e.path).toList)
    | .dir => return some (.directory [])
    | _ => return none
  catch _ => return none

/-- Adds everything that the components of a path lead through, `here` being where they start. -/
partial def addPath (here : IO.FS.DirEntry) (place : List String) (root : Tree) :
    List String → IO Tree
  | [] => do
    try
      if (← here.path.isDir) then
        let children := (← here.path.readDir).toList
        let entries ← children.mapM fun child => do return (child.fileName, ← treeAt child)
        return .alter (fun _ => .directory entries) place (some root)
      else return root
    catch _ => return root
  | name :: names => do
    let next : IO.FS.DirEntry := ⟨here.path, name⟩
    let place :=
      if name = "" ∨ name = "." then place
      else if name = ".." then place.dropLast
      else place ++ [name]
    match ← entryAt next with
    | none => return root
    | some (.file content) =>
      addPath next place (if names.isEmpty then root.addFile place content else root) names
    | some _ => addPath next place (root.addDirectory place) names

def diskFor (raw : String) : IO Disk := do
  let home := (← IO.currentDir).toString
  let root ← addPath ⟨"/", ""⟩ [] (.directory []) (components (join home raw)).tail
  return ⟨root, home⟩

def emit (f : Finish) : IO UInt32 := do
  IO.print f.output
  return UInt32.ofNat f.exit

/-- Prompts for lines of input until the session ends. -/
partial def prompt (g : Settings) (input output : IO.FS.Stream) (s : Session) : IO UInt32 := do
  if s.playback.active then
    output.putStr promptText
    output.flush
    let bytes ← readLine ByteArray.empty
    if bytes.isEmpty then
      output.putStrLn ""
      return 0
    let r := answer g s bytes.toList
    output.putStr r.1
    output.flush
    match r.2 with
    | .exit code => return UInt32.ofNat code
    | .prompt s => prompt g input output s
  else return 0
where
  readLine (line : ByteArray) : IO ByteArray := do
    let b ← input.read 1
    if b.isEmpty then return line
    let line := line ++ b
    if b.toList = [10] then return line else readLine line

def perform (c : Command) : IO UInt32 := do
  let disk ← diskFor c.script
  match source disk c.script, c with
  | .error e, _ => emit e.finish
  | .ok src, .run _ _ => emit (c.finish src [])
  | .ok src, .play _ player =>
    let g : Settings := ⟨src.title, src.path, src.text, player⟩
    let t := (Playback.new 0).loadText src.text
    match t.result with
    | .error e => emit (CommandError.engine e).finish
    | .ok () =>
      IO.print (opening g t).2
      prompt g (← IO.getStdin) (← IO.getStdout) (opening g t).1

end Dialogue.CommandLine

open Dialogue.CommandLine in
def main (args : List String) : IO UInt32 :=
  match command? args with
  | none => do
    IO.eprintln "usage: run --conversation PATH [--select main|INDEX]..."
    IO.eprintln "       play --conversation PATH [--player-speaker NAME]"
    return 2
  | some c => perform c
