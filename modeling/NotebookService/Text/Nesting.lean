/-
# `NotebookService.Text.Nesting` — commas at the top level

Field lists, flow collections and parameter lists separate their parts by commas, and a
part may itself hold commas inside brackets or quotes.  `splitTopLevel` cuts only where
no bracket and no quote is open.

The reader keeps a depth, not a stack: any closing bracket closes any opening one,
and one too many closes nothing.  A quote is closed by the same quote character;
there are no escapes.
-/
import NotebookService.Text.Blank

namespace NotebookService.Text

/-- Where a reader stands between two characters. -/
structure Nesting where
  depth : Nat
  /-- The quote character that is open. -/
  quote : Option Char
  deriving DecidableEq, Repr

namespace Nesting

/-- Outside everything. -/
def top : Nesting := ⟨0, none⟩

def isOpening (c : Char) : Bool := c = '[' || c = '{' || c = '('

def isClosing (c : Char) : Bool := c = ']' || c = '}' || c = ')'

def isQuote (c : Char) : Bool := c = '\'' || c = '"'

/-- Where the reader stands after one more character. -/
def step (n : Nesting) (c : Char) : Nesting :=
  match n.quote with
  | some q => if c = q then ⟨n.depth, none⟩ else n
  | none =>
    if isQuote c then ⟨n.depth, some c⟩
    else if isOpening c then ⟨n.depth + 1, none⟩
    else if isClosing c then ⟨n.depth - 1, none⟩
    else n

/-- Where the reader stands after a text. -/
def after (n : Nesting) (s : List Char) : Nesting := s.foldl step n

@[simp] theorem after_nil (n : Nesting) : n.after [] = n := rfl

@[simp] theorem after_cons (n : Nesting) (c : Char) (s : List Char) :
    n.after (c :: s) = (n.step c).after s := rfl

@[simp] theorem after_append (n : Nesting) (s t : List Char) :
    n.after (s ++ t) = (n.after s).after t := by
  simp [after]

/-- A comma here separates two parts. -/
def separates (n : Nesting) (c : Char) : Bool :=
  c = ',' && n.depth = 0 && n.quote.isNone

end Nesting

/-- The parts between separating commas, untrimmed.  There is always at least one. -/
def splitNested (n : Nesting) : List Char → List (List Char)
  | [] => [[]]
  | c :: s =>
    if n.separates c then [] :: splitNested n s
    else match splitNested (n.step c) s with
      | [] => [[c]]
      | p :: ps => (c :: p) :: ps

theorem splitNested_ne_nil (n : Nesting) (s : List Char) : splitNested n s ≠ [] := by
  cases s with
  | nil => simp [splitNested]
  | cons c s =>
    simp only [splitNested]
    split
    · simp
    · split <;> simp

/-- The trimmed parts of a text at its top-level commas, empty parts kept. -/
def splitTopLevel (s : List Char) : List (List Char) :=
  (splitNested .top s).map trim

end NotebookService.Text
