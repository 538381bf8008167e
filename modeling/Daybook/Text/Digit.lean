/-
Decimal digits of every script, and whole numbers read from them.

An hour, a position in a list or a count may be written in the digits of
any script.  Each script's ten digits are consecutive code points, so the
table (Unicode version 14) lists the zeros only.  A whole number may carry
a sign, blanks around it and single underscores between its digits.
-/
import Daybook.Text.Blank

namespace Daybook.Text

/-- The zeros of all scripts that have decimal digits, in ascending order. -/
def digitZeros : List Nat := [
  0x30, 0x660, 0x6F0, 0x7C0, 0x966, 0x9E6, 0xA66, 0xAE6, 0xB66, 0xBE6,
  0xC66, 0xCE6, 0xD66, 0xDE6, 0xE50, 0xED0, 0xF20, 0x1040, 0x1090, 0x17E0,
  0x1810, 0x1946, 0x19D0, 0x1A80, 0x1A90, 0x1B50, 0x1BB0, 0x1C40, 0x1C50,
  0xA620, 0xA8D0, 0xA900, 0xA9D0, 0xA9F0, 0xAA50, 0xABF0, 0xFF10, 0x104A0,
  0x10D30, 0x11066, 0x110F0, 0x11136, 0x111D0, 0x112F0, 0x11450, 0x114D0,
  0x11650, 0x116C0, 0x11730, 0x118E0, 0x11950, 0x11C50, 0x11D50, 0x11DA0,
  0x16A60, 0x16AC0, 0x16B50, 0x1D7CE, 0x1D7D8, 0x1D7E2, 0x1D7EC, 0x1D7F6,
  0x1E140, 0x1E2F0, 0x1E950, 0x1FBF0]

/-- The value of a decimal digit of any script. -/
def digitValue? (c : Char) : Option Nat :=
  let n := c.toNat
  if n < 0x80 then
    if 48 ≤ n ∧ n ≤ 57 then some (n - 48) else none
  else
    (digitZeros.find? fun z => z ≤ n && n < z + 10).map (n - ·)

/-- The decimal digits of every script. -/
def isDigit (c : Char) : Bool := (digitValue? c).isSome

/-- The value of a text of decimal digits, continuing from `acc`; none if
some character is no digit. -/
def digitsValue? (acc : Nat) : List Char → Option Nat
  | [] => some acc
  | c :: cs =>
    match digitValue? c with
    | some d => digitsValue? (acc * 10 + d) cs
    | none => none

-- ====================================================== whole numbers

/-- The longest whole number that is read, in digits. -/
def maxDigits : Nat := 4300

/-- The blanks allowed around a whole number: all but the information
separators. -/
def isNumberMargin (c : Char) : Bool := isBlank c && !(28 ≤ c.toNat && c.toNat ≤ 31)

/-- Digits with single underscores between them, continuing from `acc`. -/
def groupedDigits? (acc : Nat) : List Char → Option Nat
  | [] => none
  | [c] => (digitValue? c).map (acc * 10 + ·)
  | c :: '_' :: cs =>
    match digitValue? c with
    | some d => groupedDigits? (acc * 10 + d) cs
    | none => none
  | c :: cs =>
    match digitValue? c with
    | some d => groupedDigits? (acc * 10 + d) cs
    | none => none

/-- A text of at most `maxDigits` digits as a natural number. -/
def natural? (cs : List Char) : Option Nat :=
  if (cs.filter isDigit).length ≤ maxDigits then groupedDigits? 0 cs else none

/-- The whole number a text spells: a sign and blanks around it are
allowed, anything else makes it no number. -/
def integer? (cs : List Char) : Option Int :=
  let body := ((cs.dropWhile isNumberMargin).reverse.dropWhile isNumberMargin).reverse
  match body with
  | '-' :: ds => (natural? ds).map fun n => -(n : Int)
  | '+' :: ds => (natural? ds).map fun n => (n : Int)
  | ds => (natural? ds).map fun n => (n : Int)

end Daybook.Text
