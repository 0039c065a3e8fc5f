/-
# `NotebookService.Directive` — what a cell asks to become

The first line of a declaration may begin with a directive, which decides what the cell
compiles to.  The directive is a whole word; what follows it on the line is its rest.
-/
import NotebookService.Text.Blank

namespace NotebookService

open NotebookService.Text

inductive Directive where
  | http
  | socket
  | schedule
  deriving DecidableEq, Repr

namespace Directive

def all : List Directive := [.http, .socket, .schedule]

def token : Directive → String
  | .http => "@HTTP"
  | .socket => "@WS"
  | .schedule => "@SCHEDULE"

def ofToken? (word : String) : Option Directive := all.find? fun d => d.token = word

/-- The first word of a text, and the trimmed rest; both are empty for a blank text. -/
def firstWord (s : List Char) : List Char × List Char :=
  match splitAtBlank (trim s) with
  | some (word, rest) => (word, trim rest)
  | none => (trim s, [])

/-- The directive that a line begins with, and the rest of the line. -/
def detect? (line : String) : Option (Directive × String) :=
  let (word, rest) := firstWord line.toList
  (ofToken? (String.ofList word)).map fun d => (d, String.ofList rest)

end Directive

end NotebookService
