/-
# `NotebookService.Code.Statement` — generated code as a tree

Generators build statements and never join code by hand; `Code.Layout` alone decides about
indentation, blank lines and the order in which parameters are written.

User code appears in the tree as it was written, in a `verbatim` leaf.
-/
import NotebookService.Field

namespace NotebookService.Code

structure Param where
  name : String
  type : Option String
  default : Option String
  deriving DecidableEq, Repr

namespace Param

def typed (name type : String) : Param := ⟨name, some type, none⟩

/-- The parameter of a declared field.  A value that may be missing defaults to `None`. -/
def ofField (f : Field) : Param :=
  ⟨f.name, some f.typeHint, if f.optional then some "None" else none⟩

/-- The parameter of a declared header, which is bound by its default. -/
def ofHeader (f : Field) : Param :=
  ⟨f.name, some f.typeHint, some (if f.optional then "Header(None)" else "Header(...)")⟩

def isRequired (p : Param) : Bool := p.default.isNone

end Param

/-- All of a function but its body. -/
structure FunctionHead where
  decorators : List String
  isAsync : Bool
  name : String
  params : List Param
  deriving DecidableEq, Repr

inductive Statement where
  | line (text : String)
  | blank
  /-- User code, moved to the indentation of its place. -/
  | verbatim (code : String)
  /-- A header, ended by a colon, and the statements below it. -/
  | block (header : String) (body : List Statement)
  /-- A class of validated fields. -/
  | model (name : String) (fields : List Field)
  | function (head : FunctionHead) (body : List Statement)
  deriving Repr

end NotebookService.Code
