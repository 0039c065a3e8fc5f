/-
# `NotebookService.Json.Printer` — JSON values as text

Compact text: no spaces, members in the order of their names, and only those characters
escaped that have to be.  Floats have the shortest digits that read back.
-/
import NotebookService.Decimal.Shortest
import NotebookService.Json.Value

namespace NotebookService.Json

/-! ## Strings -/

/-- A lower-case hexadecimal digit. -/
def hexDigit (n : Nat) : Char := Nat.digitChar n

/-- A character inside a string. -/
def stringChar (c : Char) : List Char :=
  match c with
  | '"' => ['\\', '"']
  | '\\' => ['\\', '\\']
  | '\x08' => ['\\', 'b']
  | '\x0c' => ['\\', 'f']
  | '\n' => ['\\', 'n']
  | '\r' => ['\\', 'r']
  | '\t' => ['\\', 't']
  | c =>
    if c.toNat < 0x20 then
      ['\\', 'u', '0', '0', hexDigit (c.toNat / 16), hexDigit (c.toNat % 16)]
    else [c]

def stringChars (s : String) : List Char := '"' :: s.toList.flatMap stringChar ++ ['"']

/-! ## Numbers -/

/-- Where floats change from positional to scientific notation: the exponents of the
first digit that are written positionally. -/
structure FloatLayout where
  least : Int
  greatest : Int

/-- Positional from `0.00001` to below `1e+16`. -/
def floatLayout : FloatLayout := ⟨-5, 15⟩

/-- Digits with a point behind the first, unless there is only one. -/
def mantissa (digits : List Char) : List Char :=
  match digits with
  | c :: d :: rest => c :: '.' :: d :: rest
  | digits => digits

/-- A decimal with the exponent of its first digit, which has a sign. -/
def scientific (digits : List Char) (exponent : Int) : List Char :=
  mantissa digits ++ 'e' :: (if exponent < 0 then '-' else '+') ::
    Decimal.digitsOf exponent.natAbs

/-- A decimal as text.  In positional notation an integer keeps one place. -/
def FloatLayout.write (l : FloatLayout) (d : Decimal) : List Char :=
  let first := Decimal.size d.digits - 1 + d.exponent
  let text :=
    if d.digits = 0 then "0.0".toList
    else if l.least ≤ first ∧ first ≤ l.greatest then
      Decimal.positional d.digits d.exponent ++ if 0 ≤ d.exponent then ['.', '0'] else []
    else scientific (Decimal.digitsOf d.digits) first
  if d.negative then '-' :: text else text

def Number.chars : Number → List Char
  | .int i => Decimal.integerText i
  | .float x => floatLayout.write (Decimal.ofFloat .toEven x)

def Number.text (n : Number) : String := String.ofList n.chars

/-! ## Values -/

mutual

def Value.chars : Value → List Char
  | .null => "null".toList
  | .bool b => if b then "true".toList else "false".toList
  | .number n => n.chars
  | .string s => stringChars s
  | .array items => '[' :: itemsChars items ++ [']']
  | .object members => '\x7b' :: membersChars members ++ ['\x7d']

def itemsChars : List Value → List Char
  | [] => []
  | [v] => v.chars
  | v :: vs => v.chars ++ ',' :: itemsChars vs

def membersChars : List (String × Value) → List Char
  | [] => []
  | [(name, v)] => stringChars name ++ ':' :: v.chars
  | (name, v) :: members =>
    stringChars name ++ ':' :: v.chars ++ ',' :: membersChars members

end

def Value.text (v : Value) : String := String.ofList v.chars

end NotebookService.Json
