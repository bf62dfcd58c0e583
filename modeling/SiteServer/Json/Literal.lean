import SiteServer.Decimal.Shortest

/-!
# JSON numbers

A number is written as an integer with an optional fraction and an optional
exponent.  One without either is kept as an integer while it fits into 64 bits,
so that counters and identifiers come out as they went in.  Every other number
is a binary floating-point number: its digits are gathered into a significand of
64 bits as far as they fit, and the significand is then scaled by a power of
ten.  A number beyond the largest magnitude has no value.
-/

namespace SiteServer.Json

/-- A number as it is written. -/
structure Literal where
  negative : Bool
  whole : List Char
  /-- The digits after the point, if there is one. -/
  fraction : Option (List Char)
  /-- The sign and the digits of the exponent, if there is one. -/
  exponent : Option (Bool × List Char)
deriving DecidableEq, Repr

namespace Literal

/-- Reads an exponent without its mark: a sign and at least one digit. -/
def exponent? (text : List Char) : Option (Bool × List Char) :=
  let (negative, ds) :=
    match text with
    | '-' :: rest => (true, rest)
    | '+' :: rest => (false, rest)
    | rest => (false, rest)
  if ds.isEmpty || !ds.all Char.isDigit then none else some (negative, ds)

/-- Reads a number written as JSON demands: no leading zeros, and digits on both
sides of a point. -/
def parse? (text : List Char) : Option Literal :=
  let (negative, unsigned) :=
    match text with
    | '-' :: rest => (true, rest)
    | rest => (false, rest)
  let whole := unsigned.takeWhile Char.isDigit
  let afterWhole := unsigned.dropWhile Char.isDigit
  if whole.isEmpty || (whole.length > 1 && whole.head? = some '0') then none
  else
    let (fraction, afterFraction) :=
      match afterWhole with
      | '.' :: rest => (some (rest.takeWhile Char.isDigit), rest.dropWhile Char.isDigit)
      | rest => (none, rest)
    if fraction = some [] then none
    else
      match afterFraction with
      | [] => some ⟨negative, whole, fraction, none⟩
      | mark :: rest =>
        if mark = 'e' || mark = 'E' then
          (exponent? rest).map fun e => ⟨negative, whole, fraction, some e⟩
        else none

end Literal

/-- The value of a number. -/
inductive Number where
  /-- An integer from `0` to `2⁶⁴ - 1`. -/
  | natural (n : Nat)
  /-- The negative of an integer from `1` to `2⁶³`. -/
  | negative (n : Nat)
  /-- A floating-point number with its sign. -/
  | real (minus : Bool) (magnitude : Decimal.Binary64)
deriving DecidableEq, Repr

namespace Number

/-- Numbers below this bound fit into 64 bits. -/
def wordBound : Nat := Decimal.twoPow 64

/-- The significand and the power of ten that were gathered so far, and whether
a digit did not fit. -/
structure Gathered where
  significand : Nat
  exponent : Int
  full : Bool

/-- Takes a digit before the point; one that does not fit still counts as a
place. -/
def Gathered.wholeDigit (g : Gathered) (c : Char) : Gathered :=
  let next := g.significand * 10 + Text.digitValue c
  if g.full || wordBound ≤ next then { g with exponent := g.exponent + 1, full := true }
  else { g with significand := next }

/-- Takes a digit after the point; one that does not fit is dropped, as are all
after it. -/
def Gathered.fractionDigit (g : Gathered) (c : Char) : Gathered :=
  let next := g.significand * 10 + Text.digitValue c
  if g.full || wordBound ≤ next then { g with full := true }
  else { g with significand := next, exponent := g.exponent - 1 }

/-- Exponents from here on are beyond any scale. -/
def exponentBound : Nat := Decimal.twoPow 31

/-- The floating-point value of a literal. -/
def realOf? (l : Literal) : Option Number := do
  let whole := l.whole.foldl Gathered.wholeDigit ⟨0, 0, false⟩
  let g := (l.fraction.getD []).foldl Gathered.fractionDigit { whole with full := false }
  let (minus, ds) := l.exponent.getD (false, [])
  let e := Text.digitsValue ds
  if exponentBound ≤ e then
    if g.significand ≠ 0 && !minus then none else some (real l.negative .zero)
  else
    let x ← Decimal.Binary64.nearest? g.significand 1
    let x ← x.scaleTen? (g.exponent + if minus then -(e : Int) else e)
    some (real l.negative x)

/-- The value of a literal. -/
def ofLiteral? (l : Literal) : Option Number :=
  let n := Text.digitsValue l.whole
  if l.fraction.isSome || l.exponent.isSome || wordBound ≤ n then realOf? l
  else if !l.negative then some (natural n)
  else if n = 0 || Decimal.twoPow 63 < n then realOf? l
  else some (negative n)

/-- Reals are written with a point from five places before the first digit to
sixteen behind it, and else with a signed exponent; integral ones keep a zero
after the point. -/
def realLayout : Decimal.Layout where
  zerosBefore := 4
  placesBehind := 16
  integerMark := ".0"
  exponentMark := "e"
  plus := "+"

/-- The text of a number. -/
def write : Number → List Char
  | natural n => Text.digits n
  | negative n => '-' :: Text.digits n
  | real minus x =>
    (if minus then ['-'] else []) ++
      if x.significand = 0 then "0.0".toList else realLayout.write x.shortest

end Number

end SiteServer.Json
