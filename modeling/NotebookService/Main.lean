/-
# `NotebookService.Main` — the command line

The outer layer: it reads the files that a command is about into a tree, runs the
command on that, and writes what changed back.  Nothing is decided here.
-/
import NotebookService.Command.Run

namespace NotebookService

open NotebookService.Files

/-- What is at a real path. -/
partial def loadNode? (path : String) : IO (Option Node) := do
  let real := (← IO.currentDir) / path
  if ← real.isDir then
    let mut entries : List (String × Node) := []
    for entry in ← real.readDir do
      if let some node ← loadNode? (Path.join path entry.fileName) then
        entries := putEntry entry.fileName node entries
    return some (.dir entries)
  else if ← real.pathExists then
    return some (.file (← IO.FS.readBinFile real))
  else
    return none

/-- The real path of a place. -/
def realPath (place : Place) : String := "/" ++ place.text

/-- The tree with what the steps from a place lead to, and with the
directories on the way. -/
def loadSteps (root : Node) (place : Place) : List String → IO Node
  | [] => do
    match ← loadNode? (realPath place) with
    | none => return root
    | some node => return root.put node place
  | step :: steps => do
    let next := if step = ".." then place.dropLast else place ++ [step]
    if (root.find? next).isSome then loadSteps root next steps
    else if ← ((← IO.currentDir) / realPath next).isDir then
      loadSteps (root.put .emptyDir next) next steps
    else match ← loadNode? (realPath next) with
      | none => loadSteps root next steps
      | some node => return root.put node next

/-- The disk as far as some paths lead. -/
def loadDisk (paths : List String) : IO Disk := do
  let cwd := Path.steps (← IO.currentDir).toString
  let start : Disk := ⟨Node.emptyDir.put .emptyDir cwd, cwd⟩
  paths.foldlM (fun d path => do
    return { d with root := ← loadSteps d.root (d.start path) (Path.steps path) }) start

/-- Files and directories made as a tree has them. -/
def store (changes : List (Place × Option Content)) : IO Unit :=
  changes.forM fun (place, content) =>
    match content with
    | none => IO.FS.createDirAll (realPath place)
    | some bytes => IO.FS.writeBinFile (realPath place) bytes

/-- Milliseconds as seconds with two places. -/
def secondsText (ms : Nat) : String :=
  let places := toString (ms / 10 % 100)
  s!"{ms / 1000}." ++ (if places.length < 2 then "0" else "") ++ places

/-- Runs a command line; the result is its exit code. -/
def runMain (args : List String) : IO UInt32 := do
  let begun ← IO.monoMsNow
  let paths := ((Command.ofArguments? args).map Command.paths).getD []
  let disk ← loadDisk paths
  let (result, after) := Command.runArguments args disk
  store (after.root.changes [] (some disk.root))
  IO.eprint result.stderr
  IO.print result.stdout
  if result.timed then
    IO.print (Command.timeLine (secondsText ((← IO.monoMsNow) - begun)))
  return result.code.toUInt32

end NotebookService

def main (args : List String) : IO UInt32 := NotebookService.runMain args

