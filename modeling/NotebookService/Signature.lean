/-
# `NotebookService.Signature` — the function that a cell defines

A generated handler calls the function of its cell, so it has to know the function's
name, the names of its parameters and whether it is asynchronous.  They are found by a
scan of the lines and not by parsing the code.  The scan skips comment lines and the
lines of triple-quoted texts, so a definition that is only quoted is never taken.

Of several definitions the least indented one is the cell's function, and of those
the first.  Only that one is read on; when its parameter list is not closed, the
cell has no function.
-/
import NotebookService.Text.Indent
import NotebookService.Text.Lines
import NotebookService.Text.Nesting
import NotebookService.Text.WordChar

namespace NotebookService

open NotebookService.Text

structure Signature where
  name : String
  /-- The parameters in order, without `*args`, `**kwargs` and the bare
  markers `*` and `/`. -/
  params : List String
  isAsync : Bool
  /-- The line of the definition, counted from zero. -/
  line : Nat
  /-- The columns in front of the definition. -/
  indent : Nat
  deriving DecidableEq, Repr

namespace Signature

/-! ## Definition lines -/

/-- The text behind a word, if the text starts with it. -/
def after? (word : String) (s : List Char) : Option (List Char) :=
  if word.toList.isPrefixOf s then some (s.drop word.length) else none

/-- What follows `def `, with whether `async` stands in front. -/
def definition? (text : List Char) : Option (Bool × List Char) :=
  match after? "def " text with
  | some rest => some (false, rest)
  | none => do
    let rest ← after? "async" text
    let c ← rest.head?
    if isBlank c then
      let rest ← after? "def " (trimStart rest)
      return (true, rest)
    else none

/-- The number of occurrences of a triple delimiter, from left to right
and without overlap. -/
def countTriple (mark : Char) : List Char → Nat
  | a :: b :: c :: s =>
    if a = mark ∧ b = mark ∧ c = mark then countTriple mark s + 1
    else countTriple mark (b :: c :: s)
  | _ => 0

def holdsTriple (mark : Char) (l : List Char) : Bool := countTriple mark l ≠ 0

/-- The delimiter that a line leaves open: it occurs an odd number of times.  Of two
such delimiters the double one counts. -/
def opensTriple? (l : List Char) : Option Char :=
  if countTriple '"' l % 2 = 1 then some '"'
  else if countTriple '\'' l % 2 = 1 then some '\''
  else none

/-- The triple-quoted text that is open after one more line, given the
one open before it. -/
def openAfter (opened : Option Char) (l : List Char) : Option Char :=
  match opened with
  | some mark => if holdsTriple mark l then none else some mark
  | none =>
    let text := trimStart l
    if text.head? = some '#' ∨ (definition? text).isSome then none else opensTriple? l

/-- The line starts a definition, given the triple-quoted text that is open before it. -/
def startsDefinition (opened : Option Char) (l : List Char) : Bool :=
  opened.isNone && (definition? (trimStart l)).isSome

/-- The definition lines with their indentation, lines counted from `number`. -/
def definitionLines (number : Nat) (opened : Option Char) :
    List (List Char) → List (Nat × Nat)
  | [] => []
  | l :: ls =>
    let rest := definitionLines (number + 1) (openAfter opened l) ls
    if startsDefinition opened l then (number, indentation l) :: rest else rest

/-- The first of the least indented definitions. -/
def outermost? : List (Nat × Nat) → Option (Nat × Nat)
  | [] => none
  | d :: ds =>
    match outermost? ds with
    | none => some d
    | some e => if e.2 < d.2 then some e else some d

/-! ## Parameters -/

/-- The text of a parameter list up to the parenthesis that closes it, comments
left out.  A line end counts as a space, also inside quotes; `none` when
nothing closes the list. -/
def parameterText? (nesting : Nesting) (inComment : Bool) : List Char → Option (List Char)
  | [] => none
  | c :: s =>
    if inComment then
      if c = '\n' then (parameterText? nesting false s).map (' ' :: ·)
      else parameterText? nesting true s
    else if nesting.quote.isNone ∧ c = '#' then parameterText? nesting true s
    else if nesting = .top ∧ c = ')' then some []
    else
      (parameterText? (nesting.step c) false s).map ((if c = '\n' then ' ' else c) :: ·)

/-- The name in a parameter; the bare markers and the collecting parameters have none. -/
def parameterName? (parameter : List Char) : Option String :=
  let text := trim parameter
  if text.head? = some '*' ∨ text = ['/'] then none
  else
    let name := trim (text.takeWhile fun c => c ≠ ':' ∧ c ≠ '=')
    if name.isEmpty then none else some (String.ofList name)

/-! ## The function -/

/-- The signature behind `def`, with the lines that follow. -/
def read? (isAsync : Bool) (line indent : Nat) (rest : List Char)
    (following : List (List Char)) :
    Option Signature := do
  let rest := trimStart rest
  let name := rest.takeWhile isWordChar
  if name.isEmpty then none
  else
    let behind ← after? "(" (trimStart (rest.dropWhile isWordChar))
    let text ← parameterText? .top false (unlines (behind :: following))
    return ⟨String.ofList name, (splitTopLevel text).filterMap parameterName?,
      isAsync, line, indent⟩

/-- The function of a cell, from its lines. -/
def ofLines? (ls : List (List Char)) : Option Signature := do
  let (line, indent) ← outermost? (definitionLines 0 none ls)
  let (isAsync, rest) ← definition? (trimStart (ls.getD line []))
  read? isAsync line indent rest (ls.drop (line + 1))

/-- The function that a source defines. -/
def ofSource? (source : String) : Option Signature := ofLines? (lines source.toList)

def hasParam (s : Signature) (name : String) : Bool := s.params.contains name

end Signature

end NotebookService
