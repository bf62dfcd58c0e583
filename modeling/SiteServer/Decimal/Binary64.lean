/-!
# Binary floating-point numbers

A finite, non-negative number of 64-bit binary floating point is a significand
below `2⁵³` scaled by a power of two.  All arithmetic here is exact arithmetic
on natural numbers followed by one rounding to the nearest such number, ties to
the even significand, so every result is determined by the definitions below and
by nothing that a processor does.

Signs are kept apart by the callers: the magnitude of a number does not depend
on them.
-/

namespace SiteServer.Decimal

/-- A power of two. -/
def twoPow (n : Nat) : Nat := Nat.pow 2 n

/-- A power of ten. -/
def tenPow (n : Nat) : Nat := Nat.pow 10 n

/-- A magnitude: `significand · 2 ^ exponent`.  The significand has 53 bits,
fewer only at the least exponent. -/
structure Binary64 where
  significand : Nat
  exponent : Int
deriving DecidableEq, Repr

namespace Binary64

/-- The exponent of the smallest magnitudes. -/
def minExponent : Int := -1074

/-- The exponent of the largest magnitudes. -/
def maxExponent : Int := 971

/-- The magnitude zero. -/
def zero : Binary64 := ⟨0, minExponent⟩

/-- The numerator of the value, as a fraction over `denominator`. -/
def numerator (x : Binary64) : Nat :=
  x.significand * twoPow x.exponent.toNat

/-- The denominator of the value. -/
def denominator (x : Binary64) : Nat :=
  twoPow (-x.exponent).toNat

/-- The integer nearest to a fraction; a half goes to the even neighbour. -/
def roundDiv (num den : Nat) : Nat :=
  let q := num / den
  let r := num % den
  if 2 * r < den then q
  else if den < 2 * r then q + 1
  else if q % 2 = 0 then q else q + 1

/-- The largest `l` with `2 ^ l` at most the positive fraction. -/
def floorLog2 (num den : Nat) : Int :=
  let l : Int := (num.log2 : Int) - den.log2
  if den * twoPow l.toNat ≤ num * twoPow (-l).toNat then l else l - 1

/-- The magnitude nearest to a fraction; `none` if the fraction is beyond the
largest one. -/
def nearest? (num den : Nat) : Option Binary64 :=
  if num = 0 then some zero
  else
    let e := max minExponent (floorLog2 num den - 52)
    let q := roundDiv (num * twoPow (-e).toNat) (den * twoPow e.toNat)
    let x : Binary64 := if q = twoPow 53 then ⟨twoPow 52, e + 1⟩ else ⟨q, e⟩
    if x.exponent ≤ maxExponent then some x else none

/-- The rounded product. -/
def mul? (x y : Binary64) : Option Binary64 :=
  nearest? (x.numerator * y.numerator) (x.denominator * y.denominator)

/-- The rounded quotient. -/
def div? (x y : Binary64) : Option Binary64 :=
  nearest? (x.numerator * y.denominator) (x.denominator * y.numerator)

/-- The largest power of ten that is a magnitude. -/
def maxTenPower : Nat := 308

/-- Divides by a power of ten of any size, at most `maxTenPower` powers at a
time and with a rounding after each division. -/
def divTenPower (x : Binary64) (k : Nat) : Option Binary64 :=
  if k ≤ maxTenPower then do
    x.div? (← nearest? (tenPow k) 1)
  else if x.significand = 0 then some x
  else do
    divTenPower (← x.div? (← nearest? (tenPow maxTenPower) 1)) (k - maxTenPower)
termination_by k
decreasing_by simp only [maxTenPower] at *; omega

/-- Scales by a power of ten: one product with the rounded power, or quotients
by it.  `none` if the result is beyond the largest magnitude. -/
def scaleTen? (x : Binary64) (k : Int) : Option Binary64 :=
  if 0 ≤ k then
    if k.toNat ≤ maxTenPower then do
      x.mul? (← nearest? (tenPow k.toNat) 1)
    else if x.significand = 0 then some x
    else none
  else x.divTenPower (-k).toNat

end Binary64

end SiteServer.Decimal
