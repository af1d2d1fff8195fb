/-!
Finite binary64 magnitudes in exact arithmetic: a significand below 2^53 times
a power of two not below 2^-1074. A quotient of naturals is rounded to the
nearest magnitude, a tie to the even significand; products and quotients of
magnitudes are rounded once. Nothing here is infinite: what rounds beyond the
greatest magnitude has no result.
-/
namespace ProcessStart

/-- The magnitude `significand * 2 ^ exponent`. -/
structure Magnitude where
  significand : Nat
  exponent : Int
  deriving DecidableEq, Repr

/-- A finite binary64 number; zero has a sign too. -/
structure Binary64 where
  negative : Bool
  magnitude : Magnitude
  deriving DecidableEq, Repr

namespace Magnitude

def leastExponent : Int := -1074

def greatestExponent : Int := 971

def zero : Magnitude := ⟨0, leastExponent⟩

def isZero (m : Magnitude) : Bool := m.significand == 0

/-- Numerator and denominator of `n / d` in units of `2 ^ e`. -/
def scaled (n d : Nat) (e : Int) : Nat × Nat :=
  if 0 ≤ e then (n, d <<< e.toNat) else (n <<< (-e).toNat, d)

/-- The nearest natural to a quotient, a tie to the even one. -/
def nearest (n d : Nat) : Nat :=
  let q := n / d
  let r := n % d
  if 2 * r < d then q
  else if d < 2 * r then q + 1
  else if q % 2 = 0 then q else q + 1

/-- The unit in which the quotient `n / d` has a significand of 53 bits, or the least unit. -/
def unitOf (n d : Nat) : Int :=
  let e := max leastExponent ((Nat.log2 n : Int) - Nat.log2 d - 53)
  let (p, q) := scaled n d e
  if p / q < 1 <<< 53 then e else e + 1

/-- The magnitude nearest to `n / d`, unless it lies beyond the greatest. -/
def ofQuotient? (n d : Nat) : Option Magnitude :=
  if n = 0 then some zero
  else
    let e := unitOf n d
    let (p, q) := scaled n d e
    let rounded := nearest p q
    let m : Magnitude := if rounded < 1 <<< 53 then ⟨rounded, e⟩ else ⟨1 <<< 52, e + 1⟩
    if m.exponent ≤ greatestExponent then some m else none

/-- Every natural below 2^1023 has one, so the default is out of reach there. -/
def ofNat (n : Nat) : Magnitude := (ofQuotient? n 1).getD zero

def fraction (m : Magnitude) : Nat × Nat :=
  if 0 ≤ m.exponent then (m.significand <<< m.exponent.toNat, 1)
  else (m.significand, 1 <<< (-m.exponent).toNat)

def mul? (a b : Magnitude) : Option Magnitude :=
  ofQuotient? (a.fraction.1 * b.fraction.1) (a.fraction.2 * b.fraction.2)

def div? (a b : Magnitude) : Option Magnitude :=
  ofQuotient? (a.fraction.1 * b.fraction.2) (a.fraction.2 * b.fraction.1)

def powerOfTen (e : Nat) : Nat := Nat.pow 10 e

/-- The greatest power of ten with a magnitude near it is 10^308. -/
def greatestPower : Nat := 308

/-- Divides by the greatest power of ten until the exponent is in reach or nothing is left, then
by the power that remains. -/
def scaleDown : Nat → Magnitude → Nat → Magnitude
  | 0, m, _ => m
  | fuel + 1, m, e =>
    if e ≤ greatestPower then (m.div? (ofNat (powerOfTen e))).getD zero
    else if m.isZero then m
    else scaleDown fuel ((m.div? (ofNat (powerOfTen greatestPower))).getD zero) (e - greatestPower)

/-- The magnitude of `significand * 10 ^ exponent`, reached in this way: the significand is
rounded, then multiplied or divided by a rounded power of ten, and rounded again. Four divisions
take every 64-bit significand to zero. -/
def ofDecimal? (significand : Nat) (exponent : Int) : Option Magnitude :=
  let m := ofNat significand
  if exponent < 0 then some (scaleDown 4 m (-exponent).toNat)
  else if exponent.toNat ≤ greatestPower then m.mul? (ofNat (powerOfTen exponent.toNat))
  else if m.isZero then some m
  else none

end Magnitude
end ProcessStart
