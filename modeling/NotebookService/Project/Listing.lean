/-
# `NotebookService.Project.Listing` — what a source tree holds

A tree is listed from its root on: every directory before what is in it, the
entries of a directory by name, in whatever order they are found.  An entry is
left out, with all that is below it, when the rules ignore its place or its name;
so are directories of autosaved copies and the build directory.  Notebooks for
scratch work are listed nowhere.

What an entry lists depends on no other entry.  So it makes no difference that the lists
of the entries are put in order here, and not the entries before they are visited.
-/
import NotebookService.Files.Node
import NotebookService.Ignore.Rules

namespace NotebookService.Project

open NotebookService.Files

/-- Jupyter saves copies of open notebooks here. -/
def checkpointDir : String := ".ipynb_checkpoints"

def notebookSuffix : String := ".ipynb"

/-- The names of scratch notebooks end like this. -/
def sandboxSuffix : String := "sandbox.ipynb"

/-- The places found below the root of a source tree. -/
structure Listing where
  dirs : List Place
  notebooks : List Place
  files : List Place
  deriving DecidableEq, Repr

namespace Listing

def empty : Listing := ⟨[], [], []⟩

def append (a b : Listing) : Listing :=
  ⟨a.dirs ++ b.dirs, a.notebooks ++ b.notebooks, a.files ++ b.files⟩

instance : Append Listing := ⟨append⟩

def ofDir (place : Place) : Listing := ⟨[place], [], []⟩

/-- A file by itself: a notebook unless it is scratch work, or any other file. -/
def ofFile (place : Place) (name : String) : Listing :=
  if name.endsWith notebookSuffix then
    if name.endsWith sandboxSuffix then empty else ⟨[], [place], []⟩
  else ⟨[], [], [place]⟩

/-- The rules leave an entry out. -/
def isIgnored (rules : Ignore.Rules) (place : Place) (name : String) : Bool :=
  rules.ignores place.text || rules.ignores name

/-- What an entry lists, put among what others list in the order of their names. -/
def insertPart (part : String × Listing) :
    List (String × Listing) → List (String × Listing)
  | [] => [part]
  | other :: parts =>
    if part.1 ≤ other.1 then part :: other :: parts else other :: insertPart part parts

/-- What some entries list, in the order of their names. -/
def inOrder (parts : List (String × Listing)) : Listing :=
  (parts.foldr insertPart []).foldr (fun part rest => part.2 ++ rest) empty

mutual

/-- An entry that the rules do not leave out, with what is below it. -/
def ofNode (rules : Ignore.Rules) (isBuildDir : Place → Bool) (place : Place)
    (name : String) :
    Node → Listing
  | .file _ => ofFile place name
  | .dir entries =>
    if name = checkpointDir || isBuildDir place then empty
    else ofDir place ++ inOrder (ofEach rules isBuildDir place entries)

/-- What each entry of a directory lists, with its name. -/
def ofEach (rules : Ignore.Rules) (isBuildDir : Place → Bool) (above : Place) :
    List (String × Node) → List (String × Listing)
  | [] => []
  | (name, node) :: entries =>
    (name, if isIgnored rules (above ++ [name]) name then empty
      else ofNode rules isBuildDir (above ++ [name]) name node) ::
      ofEach rules isBuildDir above entries

end

/-- The entries of a directory, with what is below them. -/
def ofEntries (rules : Ignore.Rules) (isBuildDir : Place → Bool) (above : Place)
    (entries : List (String × Node)) : Listing :=
  inOrder (ofEach rules isBuildDir above entries)

end Listing

end NotebookService.Project
