/-!
# Numerals

Decimal numerals as they are written in options, in keys of placeholders and in
the heads of responses.  `digits` writes a number without leading zeros;
`digits?` reads any non-empty run of digits, and `natural?` and `integer?` also
take the signs that options allow.
-/

namespace SiteServer.Text

/-- The decimal digits of a number. -/
def digits (n : Nat) : List Char :=
  Nat.toDigits 10 n

/-- The decimal text of a number. -/
def numeral (n : Nat) : String :=
  String.ofList (digits n)

/-- The value of a digit. -/
def digitValue (c : Char) : Nat :=
  c.toNat - '0'.toNat

/-- The number that a run of digits writes. -/
def digitsValue (text : List Char) : Nat :=
  text.foldl (fun n c => n * 10 + digitValue c) 0

/-- Reads a number written with one or more digits and nothing else. -/
def digits? (text : List Char) : Option Nat :=
  if text.isEmpty || !text.all Char.isDigit then none else some (digitsValue text)

/-- Reads a number that may carry a plus sign. -/
def natural? (text : List Char) : Option Nat :=
  digits? (dropPlus text)
where
  dropPlus : List Char → List Char
    | '+' :: rest => rest
    | rest => rest

/-- Reads a number that may carry either sign. -/
def integer? : List Char → Option Int
  | '-' :: rest => (digits? rest).map fun n => -(n : Int)
  | text => (natural? text).map Int.ofNat

theorem digits_injective {m n : Nat} (h : digits m = digits n) : m = n := by
  have hm := @Nat.ofDigitChars_toDigits 10 m (by decide) (by decide)
  have hdigits : Nat.toDigits 10 m = Nat.toDigits 10 n := h
  rw [hdigits, Nat.ofDigitChars_toDigits (by decide) (by decide)] at hm
  exact hm.symm

/-! ## Hexadecimal digits -/

/-- A hexadecimal digit, in lower case. -/
def hexDigit (n : Nat) : Char :=
  if n < 10 then Char.ofNat ('0'.toNat + n) else Char.ofNat ('a'.toNat + (n - 10))

/-- The value of a hexadecimal digit. -/
def hexValue? (c : Char) : Option Nat :=
  if c.isDigit then some (digitValue c)
  else if 'a' ≤ c ∧ c ≤ 'f' then some (c.toNat - 'a'.toNat + 10)
  else if 'A' ≤ c ∧ c ≤ 'F' then some (c.toNat - 'A'.toNat + 10)
  else none

end SiteServer.Text
