/-
# `NotebookService.Metadata.Value` — metadata values

What stands behind a key of a cell's declaration.  A mapping keeps its entries in the
order in which they were written.

Metadata words such as `no` or `1.5` are often meant as text, a field name for instance,
so a scalar can be turned back into text.  It comes out in this library's spelling, not
in the one it was read in: `yes` gives `true`, `+5` gives `5` and `1e3` gives `1000`.
-/
import NotebookService.Decimal.Shortest

namespace NotebookService.Metadata

inductive Value where
  | null
  | bool (b : Bool)
  | int (i : Int)
  | float (x : Float)
  | str (s : String)
  | list (items : List Value)
  | map (entries : List (String × Value))
  deriving Repr, Inhabited

namespace Value

/-- A float in plain notation: the shortest digits, never an exponent, no
point in an integer. -/
def floatText (x : Float) : String :=
  if x.isNaN then "NaN"
  else if x.isInf then (if x < 0.0 then "-inf" else "inf")
  else
    let d := Decimal.ofFloat .up x
    let text := Decimal.positional d.digits d.exponent
    String.ofList (if d.negative then '-' :: text else text)

/-- The text of a scalar.  A null and a collection have none. -/
def scalarText? : Value → Option String
  | .bool b => some (if b then "true" else "false")
  | .int i => some (String.ofList (Decimal.integerText i))
  | .float x => some (floatText x)
  | .str s => some s
  | .null | .list _ | .map _ => none

def bool? : Value → Option Bool
  | .bool b => some b
  | _ => none

end Value

end NotebookService.Metadata

namespace NotebookService

/-- The entries of a declaration, in the order in which their keys first appeared. -/
structure Metadata where
  entries : List (String × Metadata.Value)
  deriving Repr, Inhabited

namespace Metadata

def empty : Metadata := ⟨[]⟩

def isEmpty (m : Metadata) : Bool := m.entries.isEmpty

def get? (m : Metadata) (key : String) : Option Value := m.entries.lookup key

/-- The text behind a key, if there is a scalar that has one. -/
def text? (m : Metadata) (key : String) : Option String :=
  (m.get? key).bind Value.scalarText?

def bool? (m : Metadata) (key : String) : Option Bool := (m.get? key).bind Value.bool?

end Metadata

end NotebookService
