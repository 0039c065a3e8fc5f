/-
# `NotebookService.Files.Disk` — a file tree and its working directory

The operations that a build needs, on a tree that is a value.  A path is followed step
by step, and every step but the last has to arrive at a directory.  An operation that
fails partway has done what it did: what `makeDirs` made stays.
-/
import NotebookService.Files.Node

namespace NotebookService.Files

/-- Why an operation failed. -/
inductive Fault where
  | noEntry
  | notDirectory
  | isDirectory
  | occupied
  | notText
  deriving DecidableEq, Repr

def Fault.message : Fault → String
  | .noEntry => "No such file or directory (os error 2)"
  | .notDirectory => "Not a directory (os error 20)"
  | .isDirectory => "Is a directory (os error 21)"
  | .occupied => "File exists (os error 17)"
  | .notText => "stream did not contain valid UTF-8"

structure Disk where
  root : Node
  /-- Where paths that are not absolute start. -/
  cwd : Place

namespace Disk

/-! ## Finding -/

/-- The place that some steps lead to.  What is there need not exist, but
what is above it does. -/
def follow (root : Node) (place : Place) : List String → Except Fault Place
  | [] => .ok place
  | step :: steps =>
    match root.find? place with
    | none => .error .noEntry
    | some (.file _) => .error .notDirectory
    | some (.dir _) =>
      follow root (if step = ".." then place.dropLast else place ++ [step]) steps

/-- Where the steps of a path start. -/
def start (d : Disk) (path : String) : Place := if Path.isAbsolute path then [] else d.cwd

/-- The place of a path. -/
def place (d : Disk) (path : String) : Except Fault Place :=
  if path.isEmpty then .error .noEntry else follow d.root (d.start path) (Path.steps path)

/-- What is at the place of a path, with the place. -/
def find (d : Disk) (path : String) : Except Fault (Place × Node) := do
  let place ← d.place path
  match d.root.find? place with
  | none => .error .noEntry
  | some (.file content) =>
    if Path.asksForDirectory path then .error .notDirectory
    else .ok (place, .file content)
  | some (.dir entries) => .ok (place, .dir entries)

def exists? (d : Disk) (path : String) : Bool :=
  match d.find path with
  | .ok _ => true
  | .error _ => false

def isDir (d : Disk) (path : String) : Bool :=
  match d.find path with
  | .ok (_, node) => node.isDir
  | .error _ => false

/-! ## Reading -/

def read (d : Disk) (path : String) : Except Fault Content := do
  match ← d.find path with
  | (_, .file content) => .ok content
  | (_, .dir _) => .error .isDirectory

/-- The text of a file. -/
def readText (d : Disk) (path : String) : Except Fault String := do
  match String.fromUTF8? (← d.read path) with
  | some text => .ok text
  | none => .error .notText

/-! ## Writing -/

/-- The disk with a file of this content.  It takes the place of the
file that was there. -/
def write (d : Disk) (path : String) (content : Content) : Except Fault Disk := do
  let place ← d.place path
  match d.root.find? place with
  | some (.dir _) => .error .isDirectory
  | some (.file _) =>
    if Path.asksForDirectory path then .error .notDirectory
    else .ok { d with root := d.root.put (.file content) place }
  | none =>
    if Path.asksForDirectory path then .error .isDirectory
    else .ok { d with root := d.root.put (.file content) place }

def writeText (d : Disk) (path : String) (text : String) : Except Fault Disk :=
  d.write path text.toUTF8

/-- Directories for all steps that have none yet. -/
def makeSteps (root : Node) (place : Place) : List String → Except Fault Unit × Node
  | [] => (.ok (), root)
  | step :: steps =>
    if step = ".." then makeSteps root place.dropLast steps
    else match root.find? (place ++ [step]) with
      | none => makeSteps (root.put .emptyDir (place ++ [step])) (place ++ [step]) steps
      | some (.file _) => (.error .occupied, root)
      | some (.dir _) => makeSteps root (place ++ [step]) steps

/-- A directory at a path, and those above it.  The empty path asks for nothing. -/
def makeDirs (d : Disk) (path : String) : Except Fault Unit × Disk :=
  let (result, root) := makeSteps d.root (d.start path) (Path.steps path)
  (result, { d with root })

/-- A file copied over another.  The target is emptied before the source is read, so a
file that is copied onto itself ends up empty. -/
def copy (d : Disk) (source target : String) : Except Fault Disk := do
  let _ ← d.read source
  let d ← d.write target .empty
  d.write target (← d.read source)

/-- The disk without what is at a path. -/
def remove (d : Disk) (path : String) : Except Fault Disk := do
  let (place, _) ← d.find path
  return { d with root := d.root.erase place }

end Disk

end NotebookService.Files
