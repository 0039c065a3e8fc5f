/-
# `NotebookService.Files.Node` — files and directories

A directory holds its entries in the order of their names, byte by byte, which
for names in UTF-8 is the order of their code points.  Links, owners and
permissions are not modelled.
-/
import NotebookService.Files.Path

namespace NotebookService.Files

abbrev Content := ByteArray

inductive Node where
  | file (content : Content)
  | dir (entries : List (String × Node))
  deriving Inhabited

/-- Entries with one put in; it replaces one of the same name. -/
def putEntry (name : String) (node : Node) : List (String × Node) → List (String × Node)
  | [] => [(name, node)]
  | (n, old) :: entries =>
    if name < n then (name, node) :: (n, old) :: entries
    else if name = n then (name, node) :: entries
    else (n, old) :: putEntry name node entries

theorem lookup_putEntry (name : String) (node : Node) (entries : List (String × Node))
    (other : String) : (putEntry name node entries).lookup other =
      if other = name then some node else entries.lookup other := by
  induction entries with
  | nil => grind [putEntry]
  | cons e entries ih => grind [putEntry]

namespace Node

/-- The directory with nothing in it. -/
def emptyDir : Node := .dir []

def isDir : Node → Bool
  | .dir _ => true
  | .file _ => false

/-- The entry of a name. -/
def child? : Node → String → Option Node
  | .dir entries, name => entries.lookup name
  | .file _, _ => none

/-- What is at a place. -/
def find? (node : Node) : Place → Option Node
  | [] => some node
  | name :: place =>
    match node.child? name with
    | none => none
    | some child => child.find? place

/-- The tree with a node at a place, and directories on the way to it.  Below a file
there is no place, and the tree stays as it is. -/
def put (node : Node) (new : Node) : Place → Node
  | [] => new
  | name :: place =>
    match node with
    | .file content => .file content
    | .dir entries =>
      .dir (putEntry name (((entries.lookup name).getD emptyDir).put new place) entries)

/-- The tree without what is at a place. -/
def erase (node : Node) : Place → Node
  | [] => node
  | [name] =>
    match node with
    | .file content => .file content
    | .dir entries => .dir (entries.filter (·.1 ≠ name))
  | name :: place =>
    match node with
    | .file content => .file content
    | .dir entries =>
      match entries.lookup name with
      | none => .dir entries
      | some child => .dir (putEntry name (child.erase place) entries)

/-! ## Everything below a directory -/

mutual

/-- What is at or below a place: directories without a content, files with theirs. -/
def contents (above : Place) : Node → List (Place × Option Content)
  | .file content => [(above, some content)]
  | .dir entries => (above, none) :: entriesContents above entries

def entriesContents (above : Place) : List (String × Node) → List (Place × Option Content)
  | [] => []
  | (name, node) :: entries =>
    node.contents (above ++ [name]) ++ entriesContents above entries

end

/-- What is below a node. -/
def descendants : Node → List (Place × Option Content)
  | .file _ => []
  | .dir entries => entriesContents [] entries

/-! ## What is new -/

mutual

/-- What is at or below a place now and was not there before, or had another content. -/
def changes (above : Place) (old : Option Node) : Node → List (Place × Option Content)
  | .file content =>
    match old with
    | some (.file before) => if before = content then [] else [(above, some content)]
    | _ => [(above, some content)]
  | .dir entries =>
    (if (old.map isDir).getD false then [] else [(above, none)]) ++
      entriesChanges above old entries

def entriesChanges (above : Place) (old : Option Node) :
    List (String × Node) → List (Place × Option Content)
  | [] => []
  | (name, node) :: entries =>
    node.changes (above ++ [name]) (old.bind (·.child? name)) ++
      entriesChanges above old entries

end

end Node

end NotebookService.Files
