/-
# `NotebookService.Notebook` — notebook files

A notebook file is a JSON document with a format version and a list of cells.  A cell
has a type and a source, and the source is one string or a list of strings that
follow each other.  Members that the compiler has no use for (outputs, metadata,
counters) are read over.

A record is written as an object, where no member it knows may be repeated, or as the
array of its fields in order.  Versions 1 to 3 had another layout and are refused; the
version is looked at only when the whole file has been read.
-/
import NotebookService.Cell
import NotebookService.Json.Reader

namespace NotebookService

open NotebookService.Json (Document Piece text?)

/-- A cell as a notebook file has it. -/
structure NotebookCell where
  /-- `code`, `raw`, or a word for text. -/
  type : String
  source : String
  deriving DecidableEq, Repr, Inhabited

structure Notebook where
  /-- The version of the format; 0 where the file does not say. -/
  format : Nat
  cells : List NotebookCell
  deriving DecidableEq, Repr, Inhabited

namespace NotebookCell

def kind (c : NotebookCell) : CellKind :=
  if c.type = "code" then .code else if c.type = "raw" then .raw else .markdown

/-- The cell that is compiled. -/
def cell (c : NotebookCell) : Cell := ⟨c.kind, c.source⟩

end NotebookCell

namespace Notebook

/-- What keeps a text from being a notebook. -/
inductive Defect where
  /-- No JSON, or not laid out as a notebook. -/
  | malformed
  | unsupported (format : Nat)
  deriving DecidableEq, Repr

/-! ## Records -/

/-- The value of a member that an object has at most once; the outer `none` says
that it is repeated. -/
def only? (name : String) (members : List (String × Document)) :
    Option (Option Document) :=
  match members.filter (·.1 = name) with
  | [] => some none
  | [(_, d)] => some (some d)
  | _ => none

/-- The two fields of a record, each of which may be missing. -/
def fields? (first second : String) :
    Document → Option (Option Document × Option Document)
  | .array [] => some (none, none)
  | .array [a] => some (some a, none)
  | .array [a, b] => some (some a, some b)
  | .object members => do
    let members ← members.mapM fun m => (text? m.1).map (·, m.2)
    return (← only? first members, ← only? second members)
  | _ => none

/-! ## Fields -/

def string? : Document → Option String
  | .string ps => text? ps
  | _ => none

/-- Versions have 32 bits. -/
def formatBound : Nat := 0x1_0000_0000

def format? : Document → Option Nat
  | .number ⟨false, whole, [], none⟩ =>
    let n := Decimal.valueOf whole
    if n < formatBound then some n else none
  | _ => none

/-- A source, in one string or in several. -/
def source? : Document → Option String
  | .string ps => text? ps
  | .array items => (items.mapM string?).map String.join
  | _ => none

/-! ## The document -/

/-- A field that is given a value where it is missing. -/
def orElse {α : Type} (default : α) (read : Document → Option α) :
    Option Document → Option α
  | none => some default
  | some d => read d

def cell? (d : Document) : Option NotebookCell := do
  let (type, source) ← fields? "cell_type" "source" d
  return ⟨← string? (← type), ← orElse "" source? source⟩

def cells? : Document → Option (List NotebookCell)
  | .array items => items.mapM cell?
  | _ => none

/-- The notebook that a document is, whatever its version. -/
def ofDocument? (d : Document) : Option Notebook := do
  let (format, cells) ← fields? "nbformat" "cells" d
  return ⟨← orElse 0 format? format, ← cells? (← cells)⟩

/-- The first version with the layout that is read here. -/
def oldestFormat : Nat := 4

/-- The notebook that a text is. -/
def ofText (text : String) : Except Defect Notebook :=
  match (Document.ofText? text).bind ofDocument? with
  | none => .error .malformed
  | some n =>
    if n.format ≠ 0 ∧ n.format < oldestFormat
    then .error (.unsupported n.format) else .ok n

/-- The cells to compile, in order. -/
def compiledCells (n : Notebook) : List Cell := n.cells.map NotebookCell.cell

end Notebook

end NotebookService
