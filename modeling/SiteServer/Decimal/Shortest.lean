import SiteServer.Decimal.Binary64
import SiteServer.Text.Numeral

/-!
# The shortest decimal of a binary number

A binary magnitude is written with the fewest digits that still lie nearer to it
than to any other magnitude; of several decimals with that many digits, the
nearest is taken.  The search is over the grids of one digit, two digits and so
on: on each only the two neighbours of the value can be nearest.

How the digits are then laid out, with or without an exponent, is a matter of
the format that writes them (`Layout`).
-/

namespace SiteServer.Decimal

/-- A decimal: `coefficient · 10 ^ exponent`. -/
structure Scientific where
  coefficient : Nat
  exponent : Int
deriving DecidableEq, Repr

/-- Whether `a · 10 ^ k` is at most `b · 2 ^ e`. -/
def tenLeTwo (a : Nat) (k : Int) (b : Nat) (e : Int) : Bool :=
  a * tenPow k.toNat * twoPow (-e).toNat ≤ b * twoPow e.toNat * tenPow (-k).toNat

/-- Whether `b · 2 ^ e` is at most `a · 10 ^ k`. -/
def twoLeTen (b : Nat) (e : Int) (a : Nat) (k : Int) : Bool :=
  b * twoPow e.toNat * tenPow (-k).toNat ≤ a * tenPow k.toNat * twoPow (-e).toNat

namespace Binary64

/-- The lower end of the decimals that round to `x`, in quarters of a unit. -/
def lowerEnd (x : Binary64) : Nat :=
  if x.significand = twoPow 52 ∧ minExponent < x.exponent then 4 * x.significand - 1
  else 4 * x.significand - 2

/-- The upper end of the decimals that round to `x`, in quarters of a unit. -/
def upperEnd (x : Binary64) : Nat :=
  4 * x.significand + 2

/-- Whether the decimal `c · 10 ^ k` rounds to `x`.  The ends of the interval do
if the significand is even. -/
def roundsTo (x : Binary64) (c : Nat) (k : Int) : Bool :=
  let e := x.exponent - 2
  if x.significand % 2 = 0 then
    twoLeTen x.lowerEnd e c k && tenLeTwo c k x.upperEnd e
  else
    !tenLeTwo c k x.lowerEnd e && !twoLeTen x.upperEnd e c k

/-- The largest `p` with `10 ^ p` at most the positive value. -/
def floorLog10 (x : Binary64) : Int :=
  let l := (x.significand.log2 : Int) + x.exponent
  let guess := l * 30103 / 100000
  if !tenLeTwo 1 guess x.significand x.exponent then guess - 1
  else if tenLeTwo 1 (guess + 1) x.significand x.exponent then guess + 1
  else guess

/-- The decimal with `n` digits that rounds to `x` and is nearest to it, if one
does.  Of two equally near the even one is taken. -/
def withDigits? (x : Binary64) (n : Nat) : Option Scientific :=
  let k := x.floorLog10 + 1 - n
  let low := x.numerator * tenPow (-k).toNat / (x.denominator * tenPow k.toNat)
  let pick (c : Nat) : Scientific := if c = 10 then ⟨1, k + 1⟩ else ⟨c, k⟩
  match x.roundsTo low k, x.roundsTo (low + 1) k with
  | true, true =>
    let twice := 2 * low + 1
    if !tenLeTwo twice k (2 * x.significand) x.exponent then some (pick low)
    else if !twoLeTen (2 * x.significand) x.exponent twice k then some (pick (low + 1))
    else some (pick (if low % 2 = 0 then low else low + 1))
  | true, false => some (pick low)
  | false, true => some (pick (low + 1))
  | false, false => none

/-- The shortest decimal that rounds to a positive magnitude. -/
def shortest (x : Binary64) : Scientific :=
  ((List.range 17).findSome? fun i => x.withDigits? (i + 1)).getD ⟨x.significand, 0⟩

end Binary64

/-- How a format writes a decimal. -/
structure Layout where
  /-- The point may stand this far before the first digit. -/
  zerosBefore : Nat
  /-- The point may stand this far behind the first digit. -/
  placesBehind : Nat
  /-- What an integer ends in. -/
  integerMark : String
  /-- What stands before the exponent. -/
  exponentMark : String
  /-- The sign of an exponent that is not negative. -/
  plus : String

/-- Writes a decimal: with a point while that keeps within the limits of the
layout, else with one digit before the point and an exponent. -/
def Layout.write (layout : Layout) (d : Scientific) : List Char :=
  let ds := Text.digits d.coefficient
  let point := d.exponent + ds.length
  if 0 ≤ d.exponent ∧ point ≤ layout.placesBehind then
    ds ++ List.replicate d.exponent.toNat '0' ++ layout.integerMark.toList
  else if 0 < point ∧ point ≤ layout.placesBehind then
    ds.take point.toNat ++ '.' :: ds.drop point.toNat
  else if point ≤ 0 ∧ -point ≤ layout.zerosBefore then
    '0' :: '.' :: List.replicate (-point).toNat '0' ++ ds
  else
    let exponent := point - 1
    let sign := if exponent < 0 then "-" else layout.plus
    let fraction := if ds.length ≤ 1 then [] else '.' :: ds.drop 1
    ds.take 1 ++ fraction ++ layout.exponentMark.toList ++ sign.toList ++
      Text.digits exponent.natAbs

end SiteServer.Decimal
