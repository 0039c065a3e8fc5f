/-
# `NotebookService.Project.Build` — building a project

A build makes the build directory look like the source tree: the same directories, every
file that is no notebook copied as it is, and in place of every notebook the module
compiled from it.  A directory with compiled notebooks becomes a package, and the module
that compiled sockets use is put at the top.

A notebook that cannot be read or compiled does not end the build; only files that
cannot be written do, and a source or an ignore file that cannot be read.  What was
written before stays.

The notebooks are all compiled before the first module is written.
-/
import NotebookService.Project.Config
import NotebookService.Project.Listing
import NotebookService.Project.Report
import NotebookService.Project.SupportModule

namespace NotebookService.Project

open NotebookService.Files

/-! ## Reading -/

/-- The rules of an ignore file; one that does not exist has none. -/
def readRules (d : Disk) (path : String) : Except ProjectError Ignore.Rules :=
  if d.exists? path then
    (ProjectError.reading path (d.readText path)).map Ignore.Rules.ofText
  else .ok .empty

/-- The module of one notebook, which counts its made-up names by itself. -/
def compileFile (d : Disk) (path : String) : Except ProjectError ServiceModule := do
  let text ← ProjectError.reading path (d.readText path)
  match Notebook.ofText text with
  | .error defect => .error (.ofDefect defect)
  | .ok notebook => .ok (ServiceModule.compile notebook.compiledCells 0).1

/-- The source tree of a project, with its place. -/
def readSource (d : Disk) (c : Config) :
    Except ProjectError (Place × List (String × Node)) :=
  let path := Path.join c.sourceDir ""
  match d.find path with
  | .error fault => .error (.unreadable path fault.message)
  | .ok (_, .file _) => .error (.unreadable path Fault.notDirectory.message)
  | .ok (place, .dir entries) => .ok (place, entries)

/-! ## Writing -/

/-- A change of the disk that can fail partway. -/
abbrev Building := ExceptT ProjectError (StateM Disk)

/-- A change that is made as a whole or not at all. -/
def change (path : String) (f : Disk → Except Fault Disk) : Building Unit := do
  match ProjectError.writing path (f (← get)) with
  | .ok d => set d
  | .error e => throw e

/-- The path of a place below the build directory. -/
def Config.target (c : Config) (place : Place) : String := Path.join c.buildDir place.text

/-- The path of a place below the source directory. -/
def Config.origin (c : Config) (place : Place) : String :=
  Path.join c.sourceDir place.text

def makeDirs (path : String) : Building Unit := do
  let (result, d) := (← get).makeDirs path
  set d
  match ProjectError.writing path result with
  | .ok () => return
  | .error e => throw e

def copyFile (c : Config) (place : Place) : Building Unit :=
  change (c.target place) fun d => d.copy (c.origin place) (c.target place)

def writeText (path text : String) : Building Unit :=
  change path fun d => d.writeText path text

/-! ## Modules and packages -/

def moduleExtension : String := "py"

/-- The place of the module of a notebook. -/
def modulePlace (notebook : Place) : Place :=
  match notebook.getLast? with
  | none => []
  | some name => notebook.dropLast ++ [Path.withExtension moduleExtension name]

def writeModule (c : Config) (a : Attempt) : Building Unit :=
  match a.module? with
  | none => return
  | some m => writeText (c.target (modulePlace a.place)) m.source

/-- The file that makes a directory a package. -/
def packageFile : String := "__init__.py"

/-- Packages in order, with one put in once. -/
def insertPackage (place : Place) : List Place → List Place
  | [] => [place]
  | p :: ps =>
    if place < p then place :: p :: ps
    else if place = p then p :: ps
    else p :: insertPackage place ps

/-- The directories below the root that compiled notebooks are in. -/
def packages (attempts : List Attempt) : List Place :=
  let dirs := (attempts.filter (·.module?.isSome)).map (·.place.dropLast)
  (dirs.filter (· ≠ [])).foldr insertPackage []

/-! ## The build -/

/-- What a project holds: its tree without what its rules leave out. -/
def readListing (c : Config) (rules : Ignore.Rules) : Building Listing := do
  let d ← get
  let (buildPlace, _) ← ProjectError.writing c.buildDir (d.find c.buildDir)
  let (sourcePlace, entries) ← readSource d c
  return .ofEntries rules (fun place => sourcePlace ++ place = buildPlace) [] entries

/-- A project is built; the result is a report, or the error that ended the build. -/
def building (c : Config) : Building Report := do
  let rules ← readRules (← get) c.ignorePath
  makeDirs c.buildDir
  let listing ← readListing c rules
  listing.dirs.forM fun place => makeDirs (c.target place)
  listing.files.forM (copyFile c)
  let d ← get
  let attempts := listing.notebooks.map fun place =>
    ⟨place, compileFile d (c.origin place)⟩
  attempts.forM (writeModule c)
  (packages attempts).forM fun place =>
    writeText (Path.join (c.target place) packageFile) ""
  writeText (Path.join c.buildDir supportModuleName) supportModule
  return .ofAttempts listing.files.length attempts

/-- A project on a disk is built; the disk is what is left, also when
the build ends early. -/
def build (c : Config) (d : Disk) : Except ProjectError Report × Disk :=
  (building c).run d

end NotebookService.Project
