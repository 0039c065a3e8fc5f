/-
# `NotebookService.Json.Value` — JSON values

The value that a document stands for: strings are text, numbers are integers of 64 bits
or floats, and an object maps names to values.  Of a repeated name the last member
counts, and members are ordered by name.

An integer that has 64 bits, with a sign or without, stays one; every other
number, `-0` among them, is a float.  A float takes from its digits as many as fit
64 bits, rounds them, and is then multiplied or divided by a rounded power of ten.
Each step rounds once more, so the result can differ from the float nearest to the
number in its last places.
-/
import NotebookService.Json.Document
import NotebookService.Decimal.Basic

namespace NotebookService.Json

inductive Number where
  | int (i : Int)
  | float (x : Float)
  deriving DecidableEq, Repr

inductive Value where
  | null
  | bool (b : Bool)
  | number (n : Number)
  | string (s : String)
  | array (items : List Value)
  | object (members : List (String × Value))
  deriving Repr, Inhabited

/-! ## Numbers -/

/-- Significands and positive integers have 64 bits. -/
def wordBound : Nat := 0x1_0000_0000_0000_0000

/-- Negative integers have 64 bits with their sign. -/
def negativeBound : Nat := 0x8000_0000_0000_0000

/-- Digits taken into a significand as long as it has 64 bits, and
the digits left over. -/
def takeDigits (significand : Nat) : List Char → Nat × List Char
  | [] => (significand, [])
  | c :: s =>
    let next := 10 * significand + Decimal.valueOf [c]
    if next < wordBound then takeDigits next s else (significand, c :: s)

/-- The greatest exponent whose power of ten is a float. -/
def greatestPower : Nat := 308

def powerOfTen (n : Nat) : Float := Float.ofScientific 1 false n

/-- `x × 10 ^ exponent`, scaled down in steps where one power of ten does not reach;
none when the result is infinite.  A step leaves an exponent further up, so `steps`
of them are enough. -/
def scaleBy? (steps : Nat) (x : Float) (exponent : Int) : Option Float :=
  if exponent.natAbs ≤ greatestPower then
    if 0 ≤ exponent then
      let y := x * powerOfTen exponent.natAbs
      if y.isInf then none else some y
    else some (x / powerOfTen exponent.natAbs)
  else if x == 0.0 then some x
  else if 0 ≤ exponent then none
  else match steps with
    | 0 => some x
    | steps + 1 =>
      scaleBy? steps (x / powerOfTen greatestPower) (exponent + greatestPower)

/-- Three steps bring every significand of 64 bits to zero, and zero stays. -/
def scalingSteps : Nat := 4

/-- Exponents are counted in 32 bits. -/
def exponentBound : Nat := 0x8000_0000

/-- The float of a significand and an exponent. -/
def floatOf? (negative : Bool) (significand : Nat) (exponent : Int) : Option Float :=
  (scaleBy? scalingSteps (Float.ofScientific significand false 0) exponent).map
    (Decimal.applySign negative)

/-- The significand of a numeral and the exponent that belongs to it. -/
def Numeral.significand (n : Numeral) : Nat × Int :=
  match takeDigits 0 n.whole with
  | (significand, []) =>
    let (significand, left) := takeDigits significand n.places
    (significand, (left.length : Int) - n.places.length)
  | (significand, left) =>
    let (significand, behind) := takeDigits significand n.places
    (significand, (left.length : Int) + behind.length - n.places.length)

/-- The float that a numeral is read as. -/
def Numeral.float? (n : Numeral) : Option Float :=
  let (significand, shift) := n.significand
  match n.exponent with
  | none => floatOf? n.negative significand shift
  | some (down, digits) =>
    let e := Decimal.valueOf digits
    if exponentBound ≤ e then
      if significand ≠ 0 && !down then none else some (Decimal.applySign n.negative 0.0)
    else floatOf? n.negative significand (if down then shift - e else shift + e)

/-- The number that a numeral stands for; none when it is out of range. -/
def Numeral.number? (n : Numeral) : Option Number :=
  let i := Decimal.valueOf n.whole
  if n.places.isEmpty && n.exponent.isNone then
    if n.negative then
      if i ≠ 0 && i ≤ negativeBound then some (.int (-(i : Int))) else n.float?.map .float
    else if i < wordBound then some (.int i)
    else n.float?.map .float
  else n.float?.map .float

/-! ## Objects -/

/-- Members in order of their names, with one put in; it replaces one of the same name. -/
def insertMember (name : String) (value : Value) :
    List (String × Value) → List (String × Value)
  | [] => [(name, value)]
  | (n, v) :: members =>
    if name < n then (name, value) :: (n, v) :: members
    else if name = n then (name, value) :: members
    else (n, v) :: insertMember name value members

/-- The member with a name. -/
def Value.member? (v : Value) (name : String) : Option Value :=
  match v with
  | .object members => members.lookup name
  | _ => none

def Value.isObject : Value → Bool
  | .object _ => true
  | _ => false

/-! ## Documents as values -/

/-- Arrays and objects nest to this depth. -/
def depthBound : Nat := 127

mutual

/-- The value that a document stands for, at most `depth` levels deep. -/
def Value.ofDocument? (depth : Nat) : Document → Option Value
  | .null => some .null
  | .bool b => some (.bool b)
  | .number n => n.number?.map .number
  | .string ps => (text? ps).map .string
  | .array items =>
    if depth = 0 then none else (valuesOf? (depth - 1) items).map .array
  | .object members =>
    if depth = 0 then none else (membersOf? (depth - 1) [] members).map .object

def valuesOf? (depth : Nat) : List Document → Option (List Value)
  | [] => some []
  | d :: ds => do
    let v ← Value.ofDocument? depth d
    let vs ← valuesOf? depth ds
    return v :: vs

def membersOf? (depth : Nat) (members : List (String × Value)) :
    List (List Piece × Document) → Option (List (String × Value))
  | [] => some members
  | (ps, d) :: rest => do
    let name ← text? ps
    let value ← Value.ofDocument? depth d
    membersOf? depth (insertMember name value members) rest

end

/-- The value that a document stands for. -/
def Value.ofDocument (d : Document) : Option Value := Value.ofDocument? depthBound d

end NotebookService.Json
