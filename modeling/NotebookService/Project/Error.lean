/-
# `NotebookService.Project.Error` — what ends a build or loses a notebook

An error of a file names it and says why.  On a terminal every error comes with a hint
at what to do about it.
-/
import NotebookService.Files.Disk
import NotebookService.Notebook

namespace NotebookService

inductive ProjectError where
  | unreadable (path reason : String)
  | unwritable (path reason : String)
  /-- The text of a notebook is no JSON, or not laid out as a notebook. -/
  | json (reason : String)
  | io (reason : String)
  | invalidNotebook (detail : String)
  | watch (reason : String)
  deriving DecidableEq, Repr

namespace ProjectError

def message : ProjectError → String
  | .unreadable path reason => s!"Failed to read file {path}: {reason}"
  | .unwritable path reason => s!"Failed to write file {path}: {reason}"
  | .json reason => s!"JSON error: {reason}"
  | .io reason => s!"I/O error: {reason}"
  | .invalidNotebook detail => s!"Invalid notebook: {detail}"
  | .watch reason => s!"Watch error: {reason}"

def hint : ProjectError → String
  | .unreadable _ _ => "check that the path exists and is readable"
  | .unwritable _ _ => "check that the build directory is writable"
  | .json _ | .invalidNotebook _ =>
    "open and re-save the notebook in Jupyter to repair it"
  | .io _ => "check file permissions"
  | .watch _ => "check that the source directory exists"

/-- The message with its hint on a second line. -/
def withHint (e : ProjectError) : String := s!"{e.message}\n  hint: {e.hint}"

def ofDefect : Notebook.Defect → ProjectError
  | .malformed => .json "the text is not a notebook"
  | .unsupported format => .invalidNotebook s!"nbformat {format} is not supported"

/-- A result of the file tree, its fault an error of reading this path. -/
def reading {α : Type} (path : String) : Except Files.Fault α → Except ProjectError α
  | .ok a => .ok a
  | .error fault => .error (.unreadable path fault.message)

/-- A result of the file tree, its fault an error of writing this path. -/
def writing {α : Type} (path : String) : Except Files.Fault α → Except ProjectError α
  | .ok a => .ok a
  | .error fault => .error (.unwritable path fault.message)

end ProjectError

end NotebookService
