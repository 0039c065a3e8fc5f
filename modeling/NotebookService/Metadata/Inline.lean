/-
# `NotebookService.Metadata.Inline` — values written on one line

A value on one line is a flow sequence `[a, b]`, a flow mapping `{a: b}`, a quoted
string, or a plain scalar.  A plain scalar may not hold a colon that would end a key, so
that a value which was meant as a mapping is refused and never read as text.

An item of a flow sequence may be a single `key: value` pair, which makes a
mapping of one entry.
-/
import NotebookService.Metadata.Key
import NotebookService.Metadata.Value

namespace NotebookService.Metadata

open NotebookService.Text

/-! ## Faults -/

/-- What can be wrong with a declaration. -/
inductive Fault where
  | tabIndentation
  | listAtTop
  | unexpectedIndentation
  | keyExpected (found : String)
  | emptyKey
  | unterminatedSequence
  | unterminatedMapping
  | unterminatedString
  | textAfterString
  | blockScalar
  | mappingInScalar
  deriving DecidableEq, Repr

def Fault.message : Fault → String
  | .tabIndentation => "tabs are not allowed for indentation"
  | .listAtTop => "expected `key: value` pairs, found a list"
  | .unexpectedIndentation => "unexpected indentation"
  | .keyExpected found => s!"expected `key: value`, found `{found}`"
  | .emptyKey => "empty key"
  | .unterminatedSequence => "unterminated flow sequence"
  | .unterminatedMapping => "unterminated flow mapping"
  | .unterminatedString => "unterminated string"
  | .textAfterString => "unexpected text after quoted string"
  | .blockScalar => "multi-line scalars are not supported"
  | .mappingInScalar => "mapping values are not allowed here"

/-! ## Quoted strings -/

/-- The string up to the closing apostrophe, and what follows it.  Two
apostrophes stand for one. -/
def readApostrophes? : List Char → Option (List Char × List Char)
  | [] => none
  | '\'' :: '\'' :: s => (readApostrophes? s).map fun (text, rest) => ('\'' :: text, rest)
  | '\'' :: s => some ([], s)
  | c :: s => (readApostrophes? s).map fun (text, rest) => (c :: text, rest)

/-- What a backslash and a character stand for.  A pair without a meaning
stands for itself. -/
def escaped (c : Char) : List Char :=
  match c with
  | 'n' => ['\n']
  | 't' => ['\t']
  | '"' => ['"']
  | '\\' => ['\\']
  | c => ['\\', c]

/-- The string up to the closing double quote, and what follows it. -/
def readDoubleQuotes? : List Char → Option (List Char × List Char)
  | [] => none
  | '"' :: s => some ([], s)
  | ['\\'] => none
  | '\\' :: c :: s =>
    (readDoubleQuotes? s).map fun (text, rest) => (escaped c ++ text, rest)
  | c :: s => (readDoubleQuotes? s).map fun (text, rest) => (c :: text, rest)

/-- A whole text as a quoted string, given what a reader made of it. -/
def wholeString : Option (List Char × List Char) → Except Fault Value
  | none => .error .unterminatedString
  | some (text, rest) =>
    if allBlank rest then .ok (.str (String.ofList text)) else .error .textAfterString

/-! ## Plain scalars -/

/-- A sign in front of a number, and what follows it. -/
def splitSign : List Char → Bool × List Char
  | '-' :: s => (true, s)
  | '+' :: s => (false, s)
  | s => (false, s)

/-- The integers are those of 64 bits. -/
def isInt64 (i : Int) : Bool := -0x8000_0000_0000_0000 ≤ i && i < 0x8000_0000_0000_0000

/-- A sign and digits, if the number has 64 bits. -/
def readInt? (s : List Char) : Option Int :=
  let (negative, digits) := splitSign s
  if digits.isEmpty || !digits.all Decimal.isDigit then none
  else
    let i : Int := if negative then -(Decimal.valueOf digits : Int)
      else Decimal.valueOf digits
    if isInt64 i then some i else none

/-- An exponent `e5`; no exponent at all stands for zero. -/
def readExponent? : List Char → Option Nat
  | [] => some 0
  | c :: digits =>
    if (c = 'e' ∨ c = 'E') ∧ digits ≠ [] ∧ digits.all Decimal.isDigit then
      some (Decimal.valueOf digits)
    else none

/-- A sign, digits with at most one point among them, and an exponent without a sign. -/
def readDecimal? (s : List Char) : Option Decimal :=
  let (negative, text) := splitSign s
  let whole := text.takeWhile Decimal.isDigit
  let (places, rest) :=
    match text.dropWhile Decimal.isDigit with
    | '.' :: t => (t.takeWhile Decimal.isDigit, t.dropWhile Decimal.isDigit)
    | t => ([], t)
  if whole.isEmpty && places.isEmpty then none
  else (readExponent? rest).map fun e =>
    ⟨negative, Decimal.valueOf (whole ++ places), (e : Int) - places.length⟩

def nullWords : List String := ["", "~", "null", "Null", "NULL"]

def trueWords : List String := ["true", "True", "TRUE", "yes", "Yes", "on", "On"]

def falseWords : List String := ["false", "False", "FALSE", "no", "No", "off", "Off"]

/-- A word with a meaning, a number, or else the text itself. -/
def resolvePlain (s : List Char) : Value :=
  let word := String.ofList s
  if word ∈ nullWords then .null
  else if word ∈ trueWords then .bool true
  else if word ∈ falseWords then .bool false
  else match readInt? s with
    | some i => .int i
    | none =>
      match readDecimal? s with
      | some d => .float d.toFloat
      | none => .str word

/-- A colon that would end a key: one before a space, or one at the end. -/
def holdsKeyColon : List Char → Bool
  | [] => false
  | [c] => c = ':'
  | c :: d :: s => (c = ':' && d = ' ') || holdsKeyColon (d :: s)

/-! ## Flow collections -/

/-- A flow collection or a quoted string starts here. -/
def startsFlow (s : List Char) : Bool :=
  match s with
  | [] => false
  | c :: _ => c = '[' || c = '{' || c = '"' || c = '\''

/-- The text between an opening bracket, already taken off, and the
closing one at the end. -/
def upToLast? (close : Char) (s : List Char) : Option (List Char) :=
  if s.getLast? = some close then some s.dropLast else none

/-- The parts of a flow collection that are not empty. -/
def flowParts (s : List Char) : List (List Char) :=
  (splitTopLevel s).filter fun p => !p.isEmpty

/-- The room that parts take up, each with one separator. -/
def roomOf : List (List Char) → Nat
  | [] => 0
  | p :: ps => p.length + 1 + roomOf ps

theorem length_upToLast? {close : Char} {s t : List Char}
    (h : upToLast? close s = some t) :
    t.length + 1 = s.length := by
  unfold upToLast? at h
  split at h
  · rename_i hl
    cases h
    have : s ≠ [] := by
      rintro rfl
      simp at hl
    have := List.length_pos_iff.2 this
    simp only [List.length_dropLast]
    omega
  · simp at h

theorem roomOf_splitNested (n : Nesting) (s : List Char) :
    roomOf (splitNested n s) = s.length + 1 := by
  induction s generalizing n with
  | nil => simp [splitNested, roomOf]
  | cons c s ih =>
    simp only [splitNested]
    split
    · have := ih n
      simp only [roomOf, List.length_nil, List.length_cons] at this ⊢
      omega
    · have := ih (n.step c)
      split
      · rename_i h
        simp [h, roomOf] at this
      · rename_i p ps h
        simp only [h, roomOf, List.length_cons] at this ⊢
        omega

theorem roomOf_map_trim_le (ps : List (List Char)) :
    roomOf (ps.map trim) ≤ roomOf ps := by
  induction ps with
  | nil => simp [roomOf]
  | cons p ps ih =>
    have := length_trim_le p
    simp only [roomOf, List.map_cons] at ih ⊢
    omega

theorem roomOf_filter_le (q : List Char → Bool) (ps : List (List Char)) :
    roomOf (ps.filter q) ≤ roomOf ps := by
  induction ps with
  | nil => simp
  | cons p ps ih =>
    simp only [List.filter_cons]
    split <;> simp only [roomOf] at ih ⊢ <;> omega

theorem roomOf_flowParts_le (s : List Char) : roomOf (flowParts s) ≤ s.length + 1 := by
  refine Nat.le_trans (roomOf_filter_le _ _) ?_
  refine Nat.le_trans (roomOf_map_trim_le _) ?_
  exact Nat.le_of_eq (roomOf_splitNested .top s)

/-! ## Values

Each reader calls the others on parts of its text: an item of a collection is
shorter than the collection by a bracket, and a key and its value are together
shorter than their pair. -/

mutual

/-- A value that fills the whole text. -/
def readTrimmed (s : List Char) : Except Fault Value :=
  match s with
  | '[' :: t =>
    match _h : upToLast? ']' t with
    | none => .error .unterminatedSequence
    | some inner => do
      let items ← readItems (flowParts inner)
      return .list items
  | '{' :: t =>
    match _h : upToLast? '}' t with
    | none => .error .unterminatedMapping
    | some inner => do
      let entries ← readPairs (flowParts inner)
      return .map entries
  | '"' :: t => wholeString (readDoubleQuotes? t)
  | '\'' :: t => wholeString (readApostrophes? t)
  | '|' :: _ => .error .blockScalar
  | '>' :: _ => .error .blockScalar
  | s => if holdsKeyColon s then .error .mappingInScalar else .ok (resolvePlain s)
termination_by (s.length, 0)
decreasing_by
  all_goals
    have h1 := length_upToLast? _h
    have h2 := roomOf_flowParts_le inner
    simp only [Prod.lex_def, List.length_cons]
    omega

/-- The items of a flow sequence. -/
def readItems (ps : List (List Char)) : Except Fault (List Value) :=
  match ps with
  | [] => .ok []
  | p :: ps => do
    let item ← readItem p
    let items ← readItems ps
    return item :: items
termination_by (roomOf ps, 0)
decreasing_by
  all_goals
    simp only [Prod.lex_def, roomOf]
    omega

/-- The entries of a flow mapping. -/
def readPairs (ps : List (List Char)) : Except Fault (List (String × Value)) :=
  match ps with
  | [] => .ok []
  | p :: ps => do
    let entry ← readPair p
    let entries ← readPairs ps
    return entry :: entries
termination_by (roomOf ps, 0)
decreasing_by
  all_goals
    simp only [Prod.lex_def, roomOf]
    omega

/-- A value, or a single pair, which is a mapping of one entry. -/
def readItem (p : List Char) : Except Fault Value :=
  if !startsFlow p && (splitKey? p).isSome then do
    let entry ← readPair p
    return .map [entry]
  else readInline p
termination_by (p.length, 4)
decreasing_by
  all_goals exact Prod.Lex.right _ (by decide)

/-- `key: value`, `key:` or a key alone. -/
def readPair (p : List Char) : Except Fault (String × Value) :=
  match _h : splitKey? p with
  | some (key, rest) => do
    let name ← readKey key
    if rest.isEmpty then return (name, .null)
    else
      let value ← readInline rest
      return (name, value)
  | none => do
    let name ← readKey p
    return (name, .null)
termination_by (p.length, 3)
decreasing_by
  · have := length_splitKey? _h
    simp only [Prod.lex_def]
    omega
  · have := length_splitKey? _h
    simp only [Prod.lex_def]
    omega
  · exact Prod.Lex.right _ (by decide)

/-- A key is a value of its own that is taken as text.  A null and a collection have no
text, so such a key is taken as it is written. -/
def readKey (key : List Char) : Except Fault String :=
  if key.isEmpty then .error .emptyKey
  else do
    let value ← readInline key
    return value.scalarText?.getD (String.ofList key)
termination_by (key.length, 2)
decreasing_by
  exact Prod.Lex.right _ (by decide)

/-- A value with blanks around it. -/
def readInline (s : List Char) : Except Fault Value := readTrimmed (trim s)
termination_by (s.length, 1)
decreasing_by
  exact Prod.Lex.right' _ (length_trim_le s) (by decide)

end

end NotebookService.Metadata
