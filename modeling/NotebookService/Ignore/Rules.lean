/-
# `NotebookService.Ignore.Rules` — ignore files

An ignore file holds one pattern per line.  A line that starts with `#` is a comment,
and one that starts with `!`  takes back what its pattern matches, wherever it stands:
the order of the lines does not matter.
-/
import NotebookService.Ignore.Pattern
import NotebookService.Text.Blank
import NotebookService.Text.Lines

namespace NotebookService.Ignore

open NotebookService.Text

/-- The patterns of an ignore file. -/
structure Rules where
  ignored : List String
  reincluded : List String
  deriving DecidableEq, Repr, Inhabited

namespace Rules

/-- What an ignore file without patterns, or none at all, amounts to. -/
def empty : Rules := ⟨[], []⟩

def isEmpty (r : Rules) : Bool := r.ignored.isEmpty && r.reincluded.isEmpty

/-- Rules with one more line, which is trimmed. -/
def addLine (r : Rules) (line : List Char) : Rules :=
  match line with
  | [] => r
  | '#' :: _ => r
  | '!' :: pattern => ⟨r.ignored, r.reincluded ++ [String.ofList pattern]⟩
  | pattern => ⟨r.ignored ++ [String.ofList pattern], r.reincluded⟩

/-- The rules of an ignore file. -/
def ofText (text : String) : Rules :=
  ((lines text.toList).map trim).foldl addLine empty

/-- A text without the slashes at its end. -/
def withoutSlash (s : String) : String := String.ofList (dropEndWhile (· = '/') s.toList)

/-- A path is ignored.  A slash at the end of a pattern or of the path
makes no difference to an ignoring pattern; a pattern that takes back has
to match as it stands. -/
def ignores (r : Rules) (path : String) : Bool :=
  !(r.reincluded.any (matchesPattern · path)) &&
    r.ignored.any fun p =>
      matchesPattern (withoutSlash p) (withoutSlash path) || matchesPattern p path

/-- The lines of the ignore file that a new project starts with. -/
def templateLines : List String :=
  ["# Files and folders kiln leaves out of the build.",
   "# Shell-style patterns; prefix with ! to re-include.",
   ".git",
   ".venv",
   "venv",
   "__pycache__",
   "*.pyc",
   ".ipynb_checkpoints",
   ".kilnignore",
   "build",
   "*.log",
   ".env"]

/-- The ignore file that a new project starts with. -/
def template : String := String.join (templateLines.map (· ++ "\n"))

end Rules

end NotebookService.Ignore
