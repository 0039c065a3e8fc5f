/-
# `NotebookService.Code.Literal` — string literals and class names

A string literal stands between apostrophes on one line.  A class name is a name in
words joined by underscores, each word capitalised.
-/
import NotebookService.Text.Casing

namespace NotebookService.Code

open NotebookService.Text

/-- A character inside a string literal. -/
def literalChar (c : Char) : List Char :=
  match c with
  | '\\' => ['\\', '\\']
  | '\'' => ['\\', '\'']
  | '\n' => ['\\', 'n']
  | c => [c]

def literalChars (s : List Char) : List Char := '\'' :: s.flatMap literalChar ++ ['\'']

/-- A text as a string literal. -/
def literal (s : String) : String := String.ofList (literalChars s.toList)

/-- The pieces between underscores. -/
def splitUnderscores : List Char → List (List Char)
  | [] => [[]]
  | c :: s =>
    if c = '_' then [] :: splitUnderscores s
    else match splitUnderscores s with
      | [] => [[c]]
      | p :: ps => (c :: p) :: ps

/-- A word with an upper-case initial and the rest in lower case. -/
def capitalised : List Char → List Char
  | [] => []
  | c :: s => upperOf c ++ lower s

/-- The class name made from a function's name. -/
def className (name : String) : String :=
  String.ofList ((splitUnderscores name.toList).flatMap capitalised)

end NotebookService.Code
