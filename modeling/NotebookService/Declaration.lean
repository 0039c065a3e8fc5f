/-
# `NotebookService.Declaration` — the two parts of a cell

A cell begins with its declaration: a chunk of `#` comment lines, or a triple-quoted
block, or comments followed by a block.  The first line that is neither ends the
declaration for good; from there on everything is body, later comments included.

The declaration lines lose their comment markers and the indentation that they share;
blank ones go.  Behind a comment marker one space is a separator and no indentation.

The lines of a triple-quoted block are taken as they are.  What stands on the line that
closes it, before the delimiter, still belongs to the declaration; what follows the
delimiter is dropped.
-/
import NotebookService.Text.Indent
import NotebookService.Text.Lines

namespace NotebookService

open NotebookService.Text

/-- A cell's source, taken apart. -/
structure Declaration where
  /-- The declaration lines, without markers and shared indentation. -/
  lines : List String
  /-- The body lines as they are. -/
  body : List String
  deriving DecidableEq, Repr

namespace Declaration

/-! ## Triple quotes -/

/-- The two delimiters of triple-quoted text. -/
inductive Triple where
  | double
  | single
  deriving DecidableEq, Repr

def Triple.mark : Triple → Char
  | .double => '"'
  | .single => '\''

/-- The text up to the delimiter and the text behind it. -/
def Triple.split? (t : Triple) : List Char → Option (List Char × List Char)
  | [] => none
  | a :: s =>
    match s with
    | b :: c :: rest =>
      if a = t.mark ∧ b = t.mark ∧ c = t.mark then some ([], rest)
      else (t.split? s).map fun (text, rest) => (a :: text, rest)
    | _ => none

/-- The delimiter that a text starts with, and the text behind it. -/
def openingTriple? (s : List Char) : Option (Triple × List Char) :=
  match s with
  | a :: b :: c :: rest =>
    if a = '"' ∧ b = '"' ∧ c = '"' then some (.double, rest)
    else if a = '\'' ∧ b = '\'' ∧ c = '\'' then some (.single, rest)
    else none
  | _ => none

/-! ## Lines of the declaration -/

/-- A line that holds something, or nothing. -/
def unlessBlank (l : List Char) : List (List Char) := if allBlank l then [] else [l]

/-- The text behind a comment marker, the marker already found. -/
def commentText (l : List Char) : List Char :=
  match l.dropWhile (· = '#') with
  | ' ' :: text => trimEnd text
  | text => trimEnd text

/-- The lines of a triple-quoted block, and the lines after it. -/
def splitBlock (t : Triple) : List (List Char) → List (List Char) × List (List Char)
  | [] => ([], [])
  | l :: ls =>
    match t.split? l with
    | some (text, _) => (unlessBlank (trimEnd text), ls)
    | none =>
      let (lines, body) := splitBlock t ls
      (trimEnd l :: lines, body)

/-- The declaration lines and the body lines, once a line that is not
blank has been met. -/
def splitDeclaring : List (List Char) → List (List Char) × List (List Char)
  | [] => ([], [])
  | l :: ls =>
    let text := trim l
    match openingTriple? text with
    | some (t, rest) =>
      match t.split? rest with
      | some (inside, _) => (unlessBlank (trim inside), ls)
      | none =>
        let (lines, body) := splitBlock t ls
        (unlessBlank (trim rest) ++ lines, body)
    | none =>
      if text.head? = some '#' then
        let (lines, body) := splitDeclaring ls
        (commentText text :: lines, body)
      else ([], l :: ls)

/-- Lines without the indentation that they share and without blank ones. -/
def dedent (ls : List (List Char)) : List (List Char) :=
  let shared := sharedIndentation ls
  (ls.filter fun l => !allBlank l).map (cut shared)

/-! ## Splitting -/

/-- The declaration and the body of a source; `none` if both are empty. -/
def split? (source : String) : Option Declaration :=
  let (declared, body) := splitDeclaring ((Text.lines source.toList).dropWhile allBlank)
  let declared := dedent declared
  if declared.isEmpty && body.all allBlank then none
  else some ⟨declared.map String.ofList, body.map String.ofList⟩

/-- Lines without the blank ones at the two ends. -/
def withoutBlankEnds (ls : List (List Char)) : List (List Char) :=
  ((ls.dropWhile allBlank).reverse.dropWhile allBlank).reverse

/-- The body as one text, without the blank lines around it. -/
def bodyText (d : Declaration) : String :=
  String.ofList (unlines (withoutBlankEnds (d.body.map String.toList)))

end Declaration

end NotebookService
