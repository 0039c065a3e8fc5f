/-
# `NotebookService.Json.Reader` — reading JSON texts

The grammar of RFC 8259, no more and no less: no comments, no trailing commas, no
leading zeros or signs, four kinds of white space, and nothing behind the value.

A reader takes the text from its first character on and returns what it read with the
text behind it, which is shorter.  That is what the recursion runs on.
-/
import NotebookService.Decimal.Basic
import NotebookService.Json.Document

namespace NotebookService.Json

/-- What a reader made of a text, with the text that it left. -/
abbrev Reading (α : Type) (s : List Char) :=
  Option (α × { rest : List Char // rest.length < s.length })

def isSpace (c : Char) : Bool := c = ' ' || c = '\t' || c = '\n' || c = '\r'

def skipSpace (s : List Char) : List Char := s.dropWhile isSpace

theorem length_skipSpace_le (s : List Char) : (skipSpace s).length ≤ s.length :=
  (List.dropWhile_sublist _).length_le

/-! ## Strings -/

/-- The value of a hexadecimal digit. -/
def hexDigit? (c : Char) : Option Nat :=
  if '0' ≤ c ∧ c ≤ '9' then some (c.toNat - '0'.toNat)
  else if 'a' ≤ c ∧ c ≤ 'f' then some (c.toNat - 'a'.toNat + 10)
  else if 'A' ≤ c ∧ c ≤ 'F' then some (c.toNat - 'A'.toNat + 10)
  else none

def hexUnit? (a b c d : Char) : Option Nat := do
  let a ← hexDigit? a
  let b ← hexDigit? b
  let c ← hexDigit? c
  let d ← hexDigit? d
  return ((a * 16 + b) * 16 + c) * 16 + d

/-- The character that a letter behind a backslash stands for. -/
def escape? (c : Char) : Option Char :=
  match c with
  | '"' => some '"'
  | '\\' => some '\\'
  | '/' => some '/'
  | 'b' => some '\x08'
  | 'f' => some '\x0c'
  | 'n' => some '\n'
  | 'r' => some '\r'
  | 't' => some '\t'
  | _ => none

/-- The pieces of a string up to its closing quote, and the text behind it. -/
def readPieces? : List Char → Option (List Piece × List Char)
  | [] => none
  | '"' :: s => some ([], s)
  | '\\' :: 'u' :: a :: b :: c :: d :: s =>
    match hexUnit? a b c d with
    | none => none
    | some u => (readPieces? s).map fun (ps, rest) => (.unit u :: ps, rest)
  | '\\' :: c :: s =>
    match escape? c with
    | none => none
    | some e => (readPieces? s).map fun (ps, rest) => (.char e :: ps, rest)
  | c :: s =>
    if c.toNat < 0x20 || c = '\\' then none
    else (readPieces? s).map fun (ps, rest) => (.char c :: ps, rest)

/-! ## Numbers -/

/-- The longest run of digits and the text behind it. -/
def spanDigits (s : List Char) : List Char × List Char :=
  (s.takeWhile Decimal.isDigit, s.dropWhile Decimal.isDigit)

/-- The digits in front of the point.  A zero stands alone. -/
def readWhole? (s : List Char) : Option (List Char × List Char) :=
  let (digits, rest) := spanDigits s
  match digits with
  | [] => none
  | '0' :: _ :: _ => none
  | digits => some (digits, rest)

/-- The digits behind the point, if there is one. -/
def readPlaces? (s : List Char) : Option (List Char × List Char) :=
  match s with
  | '.' :: t =>
    let (digits, rest) := spanDigits t
    if digits.isEmpty then none else some (digits, rest)
  | s => some ([], s)

/-- A sign in front of an exponent. -/
def readSign (s : List Char) : Bool × List Char :=
  match s with
  | '-' :: t => (true, t)
  | '+' :: t => (false, t)
  | t => (false, t)

/-- The exponent, if there is one. -/
def readExponent? (s : List Char) : Option (Option (Bool × List Char) × List Char) :=
  match s with
  | [] => some (none, [])
  | c :: t =>
    if c = 'e' ∨ c = 'E' then
      let (negative, u) := readSign t
      let (digits, rest) := spanDigits u
      if digits.isEmpty then none else some (some (negative, digits), rest)
    else some (none, c :: t)

/-- A number and the text behind it. -/
def readNumeral? (s : List Char) : Option (Numeral × List Char) := do
  let (negative, s) :=
    match s with
    | '-' :: t => (true, t)
    | s => (false, s)
  let (whole, s) ← readWhole? s
  let (places, s) ← readPlaces? s
  let (exponent, s) ← readExponent? s
  return (⟨negative, whole, places, exponent⟩, s)

/-! ## Values -/

/-- A word that the text starts with. -/
def readWord (word : String) (value : Document) (s : List Char) : Reading Document s :=
  if h : word.toList ≠ [] ∧ word.toList.isPrefixOf s then
    some (value, ⟨s.drop word.toList.length, by
      have := (List.isPrefixOf_iff_prefix.1 h.2).length_le
      have := List.length_pos_iff.2 h.1
      simp only [List.length_drop]
      omega⟩)
  else none

/-- The result of a reader, if it left less than it was given. -/
def shorter {α : Type} (s : List Char) (x : Option (α × List Char)) : Reading α s :=
  match x with
  | none => none
  | some (a, rest) => if h : rest.length < s.length then some (a, ⟨rest, h⟩) else none

/-- A string, from its opening quote on. -/
def readString (s : List Char) : Reading (List Piece) s :=
  match s with
  | '"' :: t => shorter _ (readPieces? t)
  | _ => none

mutual

/-- A value, from its first character on. -/
def readValue (s : List Char) : Reading Document s :=
  match s with
  | '[' :: t =>
    match readItems true t with
    | none => none
    | some (items, ⟨rest, h⟩) =>
      some (.array items, ⟨rest, Nat.lt_of_lt_of_le h (by simp)⟩)
  | '{' :: t =>
    match readMembers true t with
    | none => none
    | some (members, ⟨rest, h⟩) =>
      some (.object members, ⟨rest, Nat.lt_of_lt_of_le h (by simp)⟩)
  | '"' :: t => (readString ('"' :: t)).map fun (ps, rest) => (.string ps, rest)
  | 'n' :: t => readWord "null" .null ('n' :: t)
  | 't' :: t => readWord "true" (.bool true) ('t' :: t)
  | 'f' :: t => readWord "false" (.bool false) ('f' :: t)
  | s => (shorter s (readNumeral? s)).map fun (n, rest) => (.number n, rest)
termination_by (s.length, 0)
decreasing_by
  all_goals exact Prod.Lex.left _ _ (by simp)

/-- The items of an array up to its closing bracket.  Only the first may be missing. -/
def readItems (first : Bool) (s : List Char) : Reading (List Document) s :=
  match _hs : skipSpace s with
  | [] => none
  | c :: t =>
    if first && c = ']' then
      some ([], ⟨t, by
        have := length_skipSpace_le s
        simp only [_hs, List.length_cons] at this
        omega⟩)
    else
      match readValue (c :: t) with
      | none => none
      | some (item, ⟨rest, _hr⟩) =>
        match _hc : skipSpace rest with
        | ']' :: u =>
          some ([item], ⟨u, by
            have h1 := length_skipSpace_le s
            have h2 := length_skipSpace_le rest
            simp only [_hs, _hc, List.length_cons] at h1 h2 _hr
            omega⟩)
        | ',' :: u =>
          match readItems false u with
          | none => none
          | some (items, ⟨last, h⟩) =>
            some (item :: items, ⟨last, by
              have h1 := length_skipSpace_le s
              have h2 := length_skipSpace_le rest
              simp only [_hs, _hc, List.length_cons] at h1 h2 _hr
              omega⟩)
        | _ => none
termination_by (s.length, 1)
decreasing_by
  · exact Prod.Lex.right' _ (_hs ▸ length_skipSpace_le s) (by decide)
  · have h1 := length_skipSpace_le s
    have h2 := length_skipSpace_le rest
    simp only [_hs, _hc, List.length_cons] at h1 h2 _hr
    exact Prod.Lex.left _ _ (by omega)

/-- The members of an object up to its closing brace.  Only the first may be missing. -/
def readMembers (first : Bool) (s : List Char) :
    Reading (List (List Piece × Document)) s :=
  match _hs : skipSpace s with
  | [] => none
  | c :: t =>
    if first && c = '}' then
      some ([], ⟨t, by
        have := length_skipSpace_le s
        simp only [_hs, List.length_cons] at this
        omega⟩)
    else
      match readString (c :: t) with
      | none => none
      | some (name, ⟨behind, _hn⟩) =>
        match _hd : skipSpace behind with
        | ':' :: v =>
          match readValue (skipSpace v) with
          | none => none
          | some (value, ⟨rest, _hr⟩) =>
            match _hc : skipSpace rest with
            | '}' :: u =>
              some ([(name, value)], ⟨u, by
                have h1 := length_skipSpace_le s
                have h2 := length_skipSpace_le rest
                have h3 := length_skipSpace_le behind
                have h4 := length_skipSpace_le v
                simp only [_hs, _hc, _hd, List.length_cons] at h1 h2 h3 _hn
                omega⟩)
            | ',' :: u =>
              match readMembers false u with
              | none => none
              | some (members, ⟨last, h⟩) =>
                some ((name, value) :: members, ⟨last, by
                  have h1 := length_skipSpace_le s
                  have h2 := length_skipSpace_le rest
                  have h3 := length_skipSpace_le behind
                  have h4 := length_skipSpace_le v
                  simp only [_hs, _hc, _hd, List.length_cons] at h1 h2 h3 _hn
                  omega⟩)
            | _ => none
        | _ => none
termination_by (s.length, 1)
decreasing_by
  · have h1 := length_skipSpace_le s
    have h3 := length_skipSpace_le behind
    have h4 := length_skipSpace_le v
    simp only [_hs, _hd, List.length_cons] at h1 h3 _hn
    exact Prod.Lex.left _ _ (by omega)
  · have h1 := length_skipSpace_le s
    have h2 := length_skipSpace_le rest
    have h3 := length_skipSpace_le behind
    have h4 := length_skipSpace_le v
    simp only [_hs, _hc, _hd, List.length_cons] at h1 h2 h3 _hn
    exact Prod.Lex.left _ _ (by omega)

end

/-- The document that a text is, with nothing but space around it. -/
def readDocument? (s : List Char) : Option Document :=
  match readValue (skipSpace s) with
  | none => none
  | some (d, ⟨rest, _⟩) => if (skipSpace rest).isEmpty then some d else none

/-- The document that a text is. -/
def Document.ofText? (text : String) : Option Document := readDocument? text.toList

end NotebookService.Json
