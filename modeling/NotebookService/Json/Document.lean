/-
# `NotebookService.Json.Document` — JSON texts as they are written

A document is the tree of a JSON text with its leaves left as written: a string is the
pieces between its quotes, a number is its digits.  What a leaf means is for the reader
of the document to decide; one that skips a member need not ask whether its numbers are
in range or its escapes make characters.

Objects keep all their members, in order, repeated names included.
-/

namespace NotebookService.Json

/-- A piece of a string: a character, or a UTF-16 unit that is written as an escape. -/
inductive Piece where
  | char (c : Char)
  | unit (u : Nat)
  deriving DecidableEq, Repr

/-- A number as it is written, its digits in three parts. -/
structure Numeral where
  negative : Bool
  whole : List Char
  places : List Char
  /-- The sign and the digits of the exponent. -/
  exponent : Option (Bool × List Char)
  deriving DecidableEq, Repr

inductive Document where
  | null
  | bool (b : Bool)
  | number (n : Numeral)
  | string (pieces : List Piece)
  | array (items : List Document)
  | object (members : List (List Piece × Document))
  deriving Repr, Inhabited

/-! ## Strings -/

def isHighSurrogate (u : Nat) : Bool := 0xD800 ≤ u && u < 0xDC00

def isLowSurrogate (u : Nat) : Bool := 0xDC00 ≤ u && u < 0xE000

/-- The characters that the pieces of a string make.  Two halves of a pair make one
character; a half alone makes none. -/
def characters? : List Piece → Option (List Char)
  | [] => some []
  | .char c :: ps => (characters? ps).map (c :: ·)
  | .unit u :: ps =>
    if isHighSurrogate u then
      match ps with
      | .unit v :: ps =>
        if isLowSurrogate v then
          (characters? ps).map
            (Char.ofNat (0x10000 + (u - 0xD800) * 0x400 + (v - 0xDC00)) :: ·)
        else none
      | _ => none
    else if isLowSurrogate u then none
    else (characters? ps).map (Char.ofNat u :: ·)

/-- The text of a string, if its pieces make characters. -/
def text? (ps : List Piece) : Option String := (characters? ps).map String.ofList

end NotebookService.Json
