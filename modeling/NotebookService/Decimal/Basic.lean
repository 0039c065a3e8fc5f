/-
# `NotebookService.Decimal.Basic` — decimal numbers and their nearest floats

A number in a text is a decimal: a sign, digits and a power of ten.  This module rounds
a decimal to the nearest float and writes digits in positional notation;
`Decimal.Shortest` goes the other way.

The sign is kept apart from the digits, so that `-0` is a number of its own.
-/

namespace NotebookService

/-- The number `± digits × 10 ^ exponent`. -/
structure Decimal where
  negative : Bool
  digits : Nat
  exponent : Int
  deriving DecidableEq, Repr, Inhabited

namespace Decimal

/-! ## Digits -/

def isDigit (c : Char) : Bool := '0' ≤ c ∧ c ≤ '9'

/-- The number that a run of digits stands for. -/
def valueOf (s : List Char) : Nat := Nat.ofDigitChars 10 s 0

/-- The decimal digits of a number; zero has one. -/
def digitsOf (n : Nat) : List Char := Nat.toDigits 10 n

/-- The number of digits of a number. -/
def size (n : Nat) : Nat := (digitsOf n).length

/-- A decimal integer in words of text: a sign only when negative. -/
def integerText (i : Int) : List Char :=
  if i < 0 then '-' :: digitsOf i.natAbs else digitsOf i.natAbs

/-! ## Rounding to a float -/

def applySign (negative : Bool) (x : Float) : Float := if negative then -x else x

/-- Everything from here on is beyond half of the distance to the next power of two
after the greatest float, so it rounds to infinity. -/
def overflowSize : Int := 310

/-- Everything below is under half of the least positive float, so it rounds to zero. -/
def underflowSize : Int := -330

/-- The float nearest to a decimal, ties to even.  The two bounds keep the powers of ten
small; they change no result. -/
def toFloat (d : Decimal) : Float :=
  if d.digits = 0 then applySign d.negative 0.0
  else if size d.digits + d.exponent > overflowSize then applySign d.negative (1.0 / 0.0)
  else if size d.digits + d.exponent < underflowSize then applySign d.negative 0.0
  else applySign d.negative
    (if 0 ≤ d.exponent then Float.ofScientific d.digits false d.exponent.toNat
     else Float.ofScientific d.digits true (-d.exponent).toNat)

/-! ## Positional notation -/

/-- Digits with a point, `places` of them after it; no point for none. -/
def withPoint (digits : List Char) (places : Nat) : List Char :=
  if places = 0 then digits
  else if places < digits.length then
    digits.take (digits.length - places) ++ '.' :: digits.drop (digits.length - places)
  else '0' :: '.' :: List.replicate (places - digits.length) '0' ++ digits

/-- `digits × 10 ^ exponent` written out in full. -/
def positional (digits : Nat) (exponent : Int) : List Char :=
  if 0 ≤ exponent then
    if digits = 0 then ['0'] else digitsOf digits ++ List.replicate exponent.toNat '0'
  else withPoint (digitsOf digits) (-exponent).toNat

end Decimal

end NotebookService
