/-
# `NotebookService.Files.Path` — paths as text

A path is kept as the text that was given or put together, because messages quote it.
What it leads to is decided by its steps: the names between its slashes, where an empty
name and `.`  go nowhere.

A place below some directory is a list of names, which has no text of its own but the
names joined by slashes.
-/

namespace NotebookService.Files

/-- The names from a directory down to a file or a directory below it. -/
abbrev Place := List String

namespace Place

/-- The names joined by slashes. -/
def text (p : Place) : String := String.intercalate "/" p

end Place

namespace Path

/-- The pieces between slashes.  There is always one more piece than there are slashes. -/
def splitAtSlashes : List Char → List (List Char)
  | [] => [[]]
  | c :: s =>
    if c = '/' then [] :: splitAtSlashes s
    else match splitAtSlashes s with
      | [] => [[c]]
      | p :: ps => (c :: p) :: ps

def isAbsolute (path : String) : Bool := path.toList.head? = some '/'

/-- A step leads somewhere: up, or to a name. -/
def isStep (piece : List Char) : Bool := piece ≠ [] && piece ≠ ['.']

/-- The steps that a path takes. -/
def steps (path : String) : List String :=
  ((splitAtSlashes path.toList).filter isStep).map String.ofList

/-- The end of the path asks for a directory: it is a slash or `.`. -/
def asksForDirectory (path : String) : Bool :=
  match (splitAtSlashes path.toList).getLast? with
  | none => false
  | some piece => !isStep piece

/-- A path taken from a directory.  An absolute path does not depend on the directory. -/
def join (dir path : String) : String :=
  if isAbsolute path then path
  else if dir.isEmpty || dir.toList.getLast? = some '/' then dir ++ path
  else dir ++ "/" ++ path

/-- A file name without its extension, which a dot in front does not begin. -/
def stem (name : List Char) : List Char :=
  match name.reverse.dropWhile (· ≠ '.') with
  | _ :: c :: rest => (c :: rest).reverse
  | _ => name

/-- A file name with another extension. -/
def withExtension (extension name : String) : String :=
  String.ofList (stem name.toList) ++ "." ++ extension

end Path

end NotebookService.Files
