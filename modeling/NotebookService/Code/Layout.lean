/-
# `NotebookService.Code.Layout` — code trees as text

A level of nesting is four spaces.  A line without text carries no indentation, and a
body without statements holds `pass`.  Parameters that have no default come before those
that have one, each group in its own order, since a call could not bind them otherwise.

Verbatim code loses the indentation that its lines share, takes on that of its place,
and loses the blanks at the ends of its lines.

Top-level items stand two blank lines apart: what an item leaves behind at its end is
replaced by exactly three line feeds, and the whole text ends without one.
-/
import NotebookService.Code.Statement
import NotebookService.Text.Indent
import NotebookService.Text.Lines

namespace NotebookService.Code

open NotebookService.Text

/-! ## Lines -/

/-- A line at a level. -/
def indented (level : Nat) (text : List Char) : List Char :=
  if text.isEmpty then [] else List.replicate (4 * level) ' ' ++ text

/-- The lines of user code at a level. -/
def verbatimLines (level : Nat) (code : List Char) : List (List Char) :=
  let shared := sharedIndentation (lines code)
  (lines code).map fun l =>
    if allBlank l then [] else indented level (trimEnd (cut shared l))

/-- A parameter as it is written: an annotated default has spaces around its `=`. -/
def Param.text (p : Param) : String :=
  match p.type, p.default with
  | none, none => p.name
  | none, some d => p.name ++ "=" ++ d
  | some t, none => p.name ++ ": " ++ t
  | some t, some d => p.name ++ ": " ++ t ++ " = " ++ d

/-- The parameters in the order in which they are written. -/
def callOrder (ps : List Param) : List Param :=
  ps.filter Param.isRequired ++ ps.filter fun p => !p.isRequired

namespace FunctionHead

/-- The line that opens the function. -/
def text (f : FunctionHead) : String :=
  (if f.isAsync then "async " else "") ++ "def " ++ f.name ++ "(" ++
    ", ".intercalate ((callOrder f.params).map Param.text) ++ "):"

/-- The decorators and the opening line. -/
def lines (f : FunctionHead) : List String := f.decorators.map ("@" ++ ·) ++ [f.text]

end FunctionHead

/-- A field of a model.  A value that may be missing defaults to `None`. -/
def modelLine (f : Field) : String :=
  if f.optional then f.name ++ ": " ++ f.typeHint ++ " = None"
  else f.name ++ ": " ++ f.type

mutual

def Statement.lines (level : Nat) : Statement → List (List Char)
  | .line text => [indented level text.toList]
  | .blank => [[]]
  | .verbatim code => verbatimLines level code.toList
  | .block header body =>
    indented level (header ++ ":").toList :: bodyLines (level + 1) body
  | .model name fields =>
    indented level ("class " ++ name ++ "(BaseModel):").toList ::
      if fields.isEmpty then [indented (level + 1) "pass".toList]
      else fields.map fun f => indented (level + 1) (modelLine f).toList
  | .function head body =>
    head.lines.map (fun l => indented level l.toList) ++ bodyLines (level + 1) body

def bodyLines (level : Nat) : List Statement → List (List Char)
  | [] => [indented level "pass".toList]
  | s :: ss => s.lines level ++ statementLines level ss

def statementLines (level : Nat) : List Statement → List (List Char)
  | [] => []
  | s :: ss => s.lines level ++ statementLines level ss

end

/-! ## Text -/

/-- A top-level item as text, every line ended by a line feed. -/
def Statement.text (s : Statement) : List Char := (s.lines 0).flatMap (· ++ ['\n'])

def dropFeeds (s : List Char) : List Char := dropEndWhile (· = '\n') s

/-- An item below the text before it. -/
def stack (above item : List Char) : List Char :=
  if above.isEmpty then item else dropFeeds above ++ '\n' :: '\n' :: '\n' :: item

def renderChars (items : List Statement) : List Char :=
  dropFeeds ((items.map Statement.text).foldl stack [])

/-- Top-level items as text. -/
def render (items : List Statement) : String := String.ofList (renderChars items)

end NotebookService.Code
