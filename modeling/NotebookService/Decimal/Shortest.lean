/-
# `NotebookService.Decimal.Shortest` — the fewest digits that read back

A float stands for all the reals that round to it.  Its text is the decimal with the
fewest digits among them and, of those, the one closest to the float itself.  Two
decimals of that length can be equally close; which of them is written is a matter of
the format, so it is a parameter.

A finite float is a significand times a power of two.  The reals that round to it form
an interval that reaches half way to both neighbours; the half ways themselves belong to
it when the significand is even, and the lower one is only a quarter away below a power
of two.  All of this is exact arithmetic on natural numbers: a bound is a numerator over
a common denominator.

For one digit, two digits, … the value lies between two points of the grid of decimals
with so many digits.  The first grid on which one of the two lies in the interval gives
the answer; seventeen digits are always enough.
-/
import NotebookService.Decimal.Basic

namespace NotebookService.Decimal

/-- Which of two equally close decimals is taken. -/
inductive Tie where
  | up
  | toEven
  deriving DecidableEq, Repr

/-- The magnitude `significand × 2 ^ exponent` of a finite float. -/
structure Dyadic where
  significand : Nat
  exponent : Int
  deriving DecidableEq, Repr

/-- The magnitude that the bits of a finite float stand for. -/
def Dyadic.ofBits (bits : Nat) : Dyadic :=
  let fraction : Nat := bits % Nat.pow 2 52
  let biased : Nat := bits / Nat.pow 2 52 % Nat.pow 2 11
  if biased = 0 then ⟨fraction, -1074⟩
  else ⟨Nat.pow 2 52 + fraction, (biased : Int) - 1075⟩

/-- The reals that round to a float, over one denominator. -/
structure Interval where
  value : Nat
  lower : Nat
  upper : Nat
  denominator : Nat
  /-- The two bounds belong to the interval. -/
  closed : Bool

/-- Bounds in quarters of the last binary place, so that all three are integers. -/
def Dyadic.interval (x : Dyadic) : Interval :=
  let below := if x.significand = Nat.pow 2 52 ∧ x.exponent ≠ -1074 then 1 else 2
  let scale := Nat.pow 2 (x.exponent - 2).toNat
  { value := 4 * x.significand * scale
    lower := (4 * x.significand - below) * scale
    upper := (4 * x.significand + 2) * scale
    denominator := Nat.pow 2 (2 - x.exponent).toNat
    closed := x.significand % 2 = 0 }

/-- The interval in units of `10 ^ p`. -/
def Interval.inUnits (i : Interval) (p : Int) : Interval :=
  let up := Nat.pow 10 (-p).toNat
  { i with
    value := i.value * up
    lower := i.lower * up
    upper := i.upper * up
    denominator := i.denominator * Nat.pow 10 p.toNat }

/-- Whether an integer lies in the interval. -/
def Interval.holds (i : Interval) (n : Nat) : Bool :=
  let x := n * i.denominator
  if i.closed then i.lower ≤ x && x ≤ i.upper else i.lower < x && x < i.upper

/-- The integer nearest to the value among those two of its neighbours that
lie in the interval. -/
def Interval.nearest? (i : Interval) (tie : Tie) : Option Nat :=
  let n := i.value / i.denominator
  match i.holds n, i.holds (n + 1) with
  | false, false => none
  | true, false => some n
  | false, true => some (n + 1)
  | true, true =>
    let twice := 2 * i.value
    let middle := (2 * n + 1) * i.denominator
    if twice < middle then some n
    else if middle < twice then some (n + 1)
    else match tie with
      | .up => some (n + 1)
      | .toEven => some (if n % 2 = 0 then n else n + 1)

/-- Every positive float times this power of ten is at least one. -/
def enlargement : Nat := 350

/-- The number of digits in front of the point of a positive value; zero and
less below one tenth. -/
def Interval.magnitude (i : Interval) : Int :=
  size (i.value * Nat.pow 10 enlargement / i.denominator) - enlargement

/-- The same number without zeros at the end of its digits. -/
def dropZeros (digits : Nat) (exponent : Int) : Nat × Int :=
  if h : digits = 0 then (0, 0)
  else if digits % 10 = 0 then dropZeros (digits / 10) (exponent + 1)
  else (digits, exponent)
termination_by digits
decreasing_by omega

/-- The shortest digits of a positive magnitude, with their power of ten. -/
def Dyadic.shortest (x : Dyadic) (tie : Tie) : Nat × Int :=
  let i := x.interval
  let grids := (List.range 17).map fun k => i.magnitude - (k + 1 : Nat)
  match grids.findSome? fun p => (i.inUnits p |>.nearest? tie).map fun n => (n, p) with
  | some (n, p) => dropZeros n p
  | none => (0, 0)

/-- The shortest decimal that reads back as a finite float. -/
def ofFloat (tie : Tie) (x : Float) : Decimal :=
  let bits := x.toBits.toNat
  let magnitude := Dyadic.ofBits bits
  let (digits, exponent) :=
    if magnitude.significand = 0 then (0, 0) else magnitude.shortest tie
  ⟨Nat.pow 2 63 ≤ bits, digits, exponent⟩

end NotebookService.Decimal
