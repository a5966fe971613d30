import PairDatasets.CommandLine.Basic

/-!
The program: its first argument names a command, the others are the command's own. The files a run
may see are those whose paths stand on standard input, one on a line; what the run writes is written
back to its place.
-/
namespace PairDatasets.Program

/-- Read a file; nothing if the path leads to none. -/
def readFile? (path : String) : IO (Option (String × ByteArray)) := do
  try return some (path, ← IO.FS.readBinFile path)
  catch _ => return none

/-- Read the files with the given paths. -/
def readFiles (paths : List String) : IO FileTree := do
  return FileTree.ofFiles (← paths.filterMapM readFile?)

/-- Write what has changed. -/
def writeChanges (before after : FileTree) : IO Unit :=
  for (path, content) in before.changes after do
    match Path.ancestors path with
    | dir :: _ => IO.FS.createDirAll dir
    | [] => pure ()
    IO.FS.writeBinFile path content

/-- Run a command; errors of usage end with 2, all others with 1. -/
def runCommand (command : Command) (args : List String) : IO UInt32 := do
  let input ← (← IO.getStdin).readToEnd
  let before ← readFiles (Text.lines input)
  let (result, session) := Job.start (command.run args) before
  for line in session.printed do
    IO.println line
  writeChanges before session.files
  match result with
  | .ok () => return 0
  | .error e =>
    IO.eprintln ("error: " ++ e.message)
    match e with
    | .usage _ => return 2
    | _ => return 1

end PairDatasets.Program

open PairDatasets in
/-- Run the command that the first argument names. -/
def main (args : List String) : IO UInt32 := do
  match args with
  | name :: rest =>
    match Command.named? name with
    | some command => Program.runCommand command rest
    | none =>
      IO.eprintln s!"error: no command is named '{name}'"
      return 2
  | [] =>
    IO.eprintln "error: the first argument names a command"
    return 2
