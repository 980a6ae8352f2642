/-
The command line program: what is read and written around a run.
-/
import Stencil.Cli.Run
import Stencil.Host.Tools

namespace Stencil.Cli.Program

mutual

/-- An entry of a directory with what is below it. -/
partial def loadEntry (entry : IO.FS.DirEntry) : IO (Option (String × FileTree)) := do
  match (← entry.path.metadata).type with
  | .dir => return some (entry.fileName, ← loadEntries (← entry.path.readDir))
  | .file => return some (entry.fileName, .file (← IO.FS.readBinFile entry.path))
  | _ => return none

/-- The entries of a directory. -/
partial def loadEntries (entries : Array IO.FS.DirEntry) : IO FileTree := do
  return .dir (← entries.toList.filterMapM loadEntry)

end

/-- Writes a file, with the directories on the way to it. -/
def writeOutput (path content : String) : IO Unit := do
  let names := path.splitOn "/"
  if 1 < names.length then IO.FS.createDirAll ("/".intercalate names.dropLast)
  IO.FS.writeFile path content

/-- A time in seconds, to four places. -/
def showSeconds (milliseconds : Nat) : String :=
  let places := toString (milliseconds % 1000 * 10)
  toString (milliseconds / 1000) ++ "." ++ "".pushn '0' (4 - places.length) ++ places

/-- Prints what a run says, with the time it took where it is wanted. -/
def printOutcome (outcome : Outcome) (start : Nat) : IO Unit := do
  IO.print outcome.stdout
  for line in outcome.stderr.dropLast do IO.eprintln line
  if let some last := outcome.stderr.getLast? then
    match outcome.elapsed with
    | some (before, after) =>
      IO.eprintln (last ++ before ++ showSeconds ((← IO.monoMsNow) - start) ++ after)
    | none => IO.eprintln last

end Stencil.Cli.Program

open Stencil.Cli Program

def main (args : List String) : IO UInt32 := do
  let start ← IO.monoMsNow
  let directory ← IO.currentDir
  let here := (directory.toString.splitOn "/").filter (!·.isEmpty)
  let tree ← loadEntries (← directory.readDir)
  let outcome := run .standard ⟨directory.toString, ⟨tree.nest here, here⟩⟩ args
  if let some (path, content) := outcome.output then
    try Program.writeOutput path content
    catch e =>
      if outcome.exit == 0 then
        IO.eprintln (writeFailure path (toString e))
        return 1
  printOutcome outcome start
  return UInt32.ofNat outcome.exit
