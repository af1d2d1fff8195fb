import ProcessStart.Binary64
import ProcessStart.Text.Numeral

/-!
The shortest decimal that reads back as a given binary64 magnitude, and its
text. For one digit, two digits, and so on, the two neighbours of the value
among the decimals of that many digits are tested against the interval that
rounds to the value; the first hit is the shortest, of two hits the nearer one
is taken, and of two equally near ones the even one.
-/
namespace ProcessStart
namespace Magnitude

/-- The value and the two ends of the interval that rounds to it, over one denominator. The ends
belong to the interval exactly if the significand is even. Below the least significand of 53 bits
the neighbours are half as far apart. -/
structure Interval where
  low : Nat
  value : Nat
  high : Nat
  denominator : Nat
  closed : Bool

def interval (m : Magnitude) : Interval :=
  let gap := if m.significand = 1 <<< 52 ∧ leastExponent < m.exponent then 1 else 2
  let up := 1 <<< m.exponent.toNat
  { low := (4 * m.significand - gap) * up
    value := 4 * m.significand * up
    high := (4 * m.significand + 2) * up
    denominator := 4 <<< (-m.exponent).toNat
    closed := m.significand % 2 == 0 }

def Interval.contains (i : Interval) (n d : Nat) : Bool :=
  let x := n * i.denominator
  if i.closed then i.low * d ≤ x && x ≤ i.high * d else i.low * d < x && x < i.high * d

/-- The exponent of the first digit of a positive quotient. -/
def leadingExponent (n d : Nat) : Int :=
  if d ≤ n then (Text.decimal (n / d)).length - 1
  else -((Text.decimal ((d + n - 1) / n - 1)).length : Int)

structure Decimal where
  digits : Nat
  exponent : Int
  deriving DecidableEq, Repr

namespace Decimal

def fraction (x : Decimal) : Nat × Nat :=
  if 0 ≤ x.exponent then (x.digits * powerOfTen x.exponent.toNat, 1)
  else (x.digits, powerOfTen (-x.exponent).toNat)

def strip : Nat → Decimal → Decimal
  | 0, x => x
  | fuel + 1, x =>
    if x.digits ≠ 0 ∧ x.digits % 10 = 0 then strip fuel ⟨x.digits / 10, x.exponent + 1⟩ else x

end Decimal

/-- The two decimals with the last digit at this exponent between which the value lies. -/
def neighbours (i : Interval) (exponent : Int) : Decimal × Decimal :=
  let digits :=
    if 0 ≤ exponent then i.value / (i.denominator * powerOfTen exponent.toNat)
    else i.value * powerOfTen (-exponent).toNat / i.denominator
  (⟨digits, exponent⟩, ⟨digits + 1, exponent⟩)

def Interval.containsDecimal (i : Interval) (x : Decimal) : Bool :=
  i.contains x.fraction.1 x.fraction.2

def nearer (i : Interval) (below above : Decimal) : Decimal :=
  let (p, q) := below.fraction
  let (r, s) := above.fraction
  let left := (i.value * q - p * i.denominator) * s
  let right := (r * i.denominator - i.value * s) * q
  if left < right then below
  else if right < left then above
  else if below.digits % 2 = 0 then below else above

/-- The neighbour at this exponent that reads back as the value. -/
def hit? (i : Interval) (exponent : Int) : Option Decimal :=
  let (below, above) := neighbours i exponent
  match i.containsDecimal below, i.containsDecimal above with
  | true, true => some (nearer i below above)
  | true, false => some below
  | false, true => some above
  | false, false => none

/-- Tries ever more digits; seventeen are always enough. -/
def shortestFrom (i : Interval) : Nat → Int → Decimal
  | 0, exponent => (neighbours i exponent).1
  | tries + 1, exponent => (hit? i exponent).getD (shortestFrom i tries (exponent - 1))

def shortest (m : Magnitude) : Decimal :=
  let i := m.interval
  (shortestFrom i 17 (leadingExponent i.value i.denominator)).strip 17

/-- First digits are written positionally from 10^-5 up to 10^15. -/
def isPositional (exponent : Int) : Bool := -5 ≤ exponent && exponent ≤ 15

/-- Digits with the point behind the first `whole` of them; a number without fraction gets one. -/
def pointed (digits : List Char) (whole : Nat) : List Char :=
  let filled := digits ++ List.replicate (whole - digits.length) '0'
  filled.take whole ++ '.' :: (if filled.length ≤ whole then ['0'] else filled.drop whole)

def exponentText (e : Int) : List Char :=
  'e' :: (if e < 0 then '-' else '+') :: Text.decimal e.natAbs

def decimalText (x : Decimal) : List Char :=
  let digits := Text.decimal x.digits
  let leading := x.exponent + digits.length - 1
  if isPositional leading then
    if 0 ≤ leading then pointed digits (leading.toNat + 1)
    else '0' :: '.' :: List.replicate ((-leading).toNat - 1) '0' ++ digits
  else
    match digits with
    | [d] => d :: exponentText leading
    | d :: ds => d :: '.' :: ds ++ exponentText leading
    | [] => []

def text (m : Magnitude) : List Char :=
  if m.isZero then "0.0".toList else decimalText m.shortest

end Magnitude

/-- A number with a point or an exponent, so that it cannot be taken for an integer. -/
def Binary64.text (x : Binary64) : List Char :=
  if x.negative then '-' :: x.magnitude.text else x.magnitude.text

end ProcessStart
