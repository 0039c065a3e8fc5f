/-
# `NotebookService.Metadata.Block` — declarations as indented blocks

A declaration is a block mapping: lines `key: value`, where a key without a value
owns the deeper lines below it.  A block sequence has items `- value`; it may stand
at the column of the key that owns it.  `- key: value` starts a mapping whose first
line begins behind the dash.

The lines are prepared first: comments and blank lines go, and of each line left its
indentation and its text are kept.  A row is then consumed exactly once, so the readers
recurse on the rows that are left.  Entries are collected as they come; a key that was
there before keeps its place and takes the later value.
-/
import NotebookService.Diagnostic
import NotebookService.Metadata.Inline
import NotebookService.Table
import NotebookService.Text.Indent

namespace NotebookService.Metadata

open NotebookService.Text

/-- A fault and the line that shows it. -/
structure Refusal where
  line : Nat
  fault : Fault
  deriving DecidableEq, Repr

/-- The refusal as the reason why a cell is left out. -/
def Refusal.cellError (r : Refusal) : CellError := .metadata r.line r.fault.message

/-! ## Rows -/

/-- A line that holds something, its indentation taken off. -/
structure Row where
  number : Nat
  indent : Nat
  text : List Char
  deriving DecidableEq, Repr

/-- The row starts an item of a block sequence. -/
def isItemText (text : List Char) : Bool :=
  match text with
  | ['-'] => true
  | '-' :: ' ' :: _ => true
  | _ => false

def Row.isItem (r : Row) : Bool := isItemText r.text

/-- The line up to its comment.  A comment starts at a `#` after a blank,
outside quotes; a quote opens only after a blank, so that an apostrophe inside
a word opens none. -/
def uncommented (afterBlank : Bool) (quote : Option Char) : List Char → List Char
  | [] => []
  | c :: s =>
    match quote with
    | some q => c :: uncommented (isBlank c) (if c = q then none else some q) s
    | none =>
      if afterBlank && c = '#' then []
      else if afterBlank && Nesting.isQuote c then c :: uncommented (isBlank c) (some c) s
      else c :: uncommented (isBlank c) none s

/-- The row of a line, if it holds anything.  Only spaces indent. -/
def rowOfLine (number : Nat) (line : List Char) : Except Refusal (Option Row) :=
  let content := trimEnd (uncommented true none line)
  if content.isEmpty then .ok none
  else
    let text := content.dropWhile (· = ' ')
    if text.head? = some '\t' then .error ⟨number, .tabIndentation⟩
    else .ok (some ⟨number, content.length - text.length, text⟩)

/-- The rows of lines that are numbered from `number` on. -/
def rowsFrom (number : Nat) : List (List Char) → Except Refusal (List Row)
  | [] => .ok []
  | line :: lines => do
    let row ← rowOfLine number line
    let rows ← rowsFrom (number + 1) lines
    return row.toList ++ rows

/-! ## Blocks -/

/-- Entries in the order in which they were written, as a mapping. -/
def collect {α : Type} (entries : List (String × α)) : List (String × α) :=
  entries.foldl (fun es e => Table.put e.1 e.2 es) []

/-- A fault shown by a row. -/
def Row.refuse {α : Type} (r : Row) (fault : Fault) : Except Refusal α :=
  .error ⟨r.number, fault⟩

/-- A value on one line, its faults shown by a row. -/
def Row.inline {α : Type} (r : Row) (x : Except Fault α) : Except Refusal α :=
  x.mapError fun fault => ⟨r.number, fault⟩

/-- What a reader made of `n` rows, with the rows that it left. -/
abbrev Reading (α : Type) (n : Nat) :=
  Except Refusal (α × { rows : List Row // rows.length ≤ n })

/-- The row that a compact item `- key: value` stands for: its text, at the
column of its text. -/
def Row.behindDash (r : Row) : Row :=
  let rest := r.text.tail
  { r with indent := r.indent + 1 + indentation rest, text := trimStart rest }

mutual

/-- The block that begins at the first row, at its column. -/
def readBlock (indent : Nat) (rows : List Row) : Reading Value rows.length :=
  match rows with
  | [] => .ok (.null, ⟨[], Nat.le_refl _⟩)
  | row :: rest =>
    if row.isItem then do
      let (items, left) ← readSequence indent (row :: rest)
      return (.list items, left)
    else do
      let (entries, left) ← readMapping indent (row :: rest)
      return (.map (collect entries), left)
termination_by (rows.length, 1)
decreasing_by
  all_goals exact Prod.Lex.right _ (by decide)

/-- The value of a key without text: the deeper block below it, or the sequence
at its own column. -/
def readBelow (indent : Nat) (rows : List Row) : Reading Value rows.length :=
  match rows with
  | [] => .ok (.null, ⟨[], Nat.le_refl _⟩)
  | next :: rest =>
    if indent < next.indent then readBlock next.indent (next :: rest)
    else if next.indent = indent && next.isItem then do
      let (items, left) ← readSequence indent (next :: rest)
      return (.list items, left)
    else .ok (.null, ⟨next :: rest, Nat.le_refl _⟩)
termination_by (rows.length, 2)
decreasing_by
  all_goals exact Prod.Lex.right _ (by decide)

/-- The entry that a row starts, with the rows after it. -/
def readEntry (indent : Nat) (row : Row) (rest : List Row) :
    Reading (String × Value) rest.length :=
  match splitKey? row.text with
  | none => row.refuse (.keyExpected (String.ofList row.text))
  | some (key, text) => do
    let name ← row.inline (readKey key)
    if text.isEmpty then
      let (value, left) ← readBelow indent rest
      return ((name, value), left)
    else
      let value ← row.inline (readInline text)
      return ((name, value), ⟨rest, Nat.le_refl _⟩)
termination_by (rest.length, 3)
decreasing_by
  exact Prod.Lex.right _ (by decide)

/-- The entries at one column.  A row further out, or an item of a
sequence there, ends them. -/
def readMapping (indent : Nat) (rows : List Row) :
    Reading (List (String × Value)) rows.length :=
  match rows with
  | [] => .ok ([], ⟨[], Nat.le_refl _⟩)
  | row :: rest =>
    if row.indent < indent || (row.indent = indent && row.isItem) then
      .ok ([], ⟨row :: rest, Nat.le_refl _⟩)
    else if indent < row.indent then row.refuse .unexpectedIndentation
    else do
      let (entry, ⟨left, _h⟩) ← readEntry indent row rest
      let (entries, ⟨last, h⟩) ← readMapping indent left
      return (entry :: entries, ⟨last, by simp only [List.length_cons]; omega⟩)
termination_by (rows.length, 0)
decreasing_by
  · exact Prod.Lex.left _ _ (by simp)
  · exact Prod.Lex.left _ _ (by simp only [List.length_cons]; omega)

/-- The items at one column. -/
def readSequence (indent : Nat) (rows : List Row) : Reading (List Value) rows.length :=
  match rows with
  | [] => .ok ([], ⟨[], Nat.le_refl _⟩)
  | row :: rest =>
    if indent < row.indent then row.refuse .unexpectedIndentation
    else if row.indent < indent || !row.isItem then .ok ([], ⟨row :: rest, Nat.le_refl _⟩)
    else do
      let (item, ⟨left, _h⟩) ← readSequenceItem indent row rest
      let (items, ⟨last, h⟩) ← readSequence indent left
      return (item :: items, ⟨last, by simp only [List.length_cons]; omega⟩)
termination_by (rows.length, 0)
decreasing_by
  · exact Prod.Lex.left _ _ (by simp)
  · exact Prod.Lex.left _ _ (by simp only [List.length_cons]; omega)

/-- The item that a row starts, with the rows after it.  An item directly behind a dash
would have to stand at a column of its own, which no row can share with the dash. -/
def readSequenceItem (indent : Nat) (row : Row) (rest : List Row) :
    Reading Value rest.length :=
  let compact := row.behindDash
  if compact.text.isEmpty then
    match rest with
    | [] => .ok (.null, ⟨[], Nat.le_refl _⟩)
    | next :: rows =>
      if indent < next.indent then readBlock next.indent (next :: rows)
      else .ok (.null, ⟨next :: rows, Nat.le_refl _⟩)
  else if (splitKey? compact.text).isSome && !startsFlow compact.text then
    if compact.isItem then row.refuse .unexpectedIndentation
    else do
      let (entry, ⟨left, _h⟩) ← readEntry compact.indent compact rest
      let (entries, ⟨last, h⟩) ← readMapping compact.indent left
      return (.map (collect (entry :: entries)), ⟨last, by omega⟩)
  else do
    let value ← row.inline (readInline compact.text)
    return (value, ⟨rest, Nat.le_refl _⟩)
termination_by (rest.length, 4)
decreasing_by
  · exact Prod.Lex.right _ (by decide)
  · exact Prod.Lex.right _ (by decide)
  · exact Prod.Lex.right' _ _h (by decide)

end

/-- The entries of prepared rows, the first of which sets the column. -/
def readRows (rows : List Row) : Except Refusal (List (String × Value)) :=
  match rows with
  | [] => .ok []
  | first :: rest =>
    if first.isItem then first.refuse .listAtTop
    else do
      let (entries, left) ← readMapping first.indent (first :: rest)
      match left.val with
      | [] => return entries
      | row :: _ => row.refuse .unexpectedIndentation

/-- The metadata of declaration lines that are numbered from `firstLine` on. -/
def read (firstLine : Nat) (lines : List String) : Except Refusal Metadata := do
  let rows ← rowsFrom firstLine (lines.map String.toList)
  let entries ← readRows rows
  return ⟨collect entries⟩

end NotebookService.Metadata
