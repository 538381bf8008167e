/-
The shortest decimal text of a double precision number.

The digits are the fewest that read back as the same number; of those the
ones nearest to it, a tie going to the even last digit.  They are written
positionally from 10 ^ -4 up to below 10 ^ 16, always with a fractional
part, and otherwise with an exponent of at least two digits.
-/
import Daybook.Number.Binary64

namespace Daybook.Binary64

/-- The open or closed interval of the quotients over `den` that round to
one number, with the number itself as `value`. -/
structure Interval where
  low : Nat
  value : Nat
  high : Nat
  den : Nat
  closed : Bool

/-- The interval that rounds to mantissa · 2 ^ exponent.  Below a power of
two the neighbour is nearer. -/
def interval (mantissa : Nat) (exponent : Int) : Interval :=
  let up := Nat.pow 2 exponent.toNat
  let den := 4 * Nat.pow 2 (-exponent).toNat
  let below := if mantissa = Nat.pow 2 52 ∧ minExponent < exponent then 1 else 2
  { low := (4 * mantissa - below) * up
    value := 4 * mantissa * up
    high := (4 * mantissa + 2) * up
    den := den
    closed := mantissa % 2 = 0 }

/-- Whether n · 10 ^ power lies in the interval. -/
def Interval.holds (i : Interval) (n : Nat) (power : Int) : Bool :=
  let x := n * Nat.pow 10 power.toNat * i.den
  let scale := Nat.pow 10 (-power).toNat
  if i.closed then i.low * scale ≤ x && x ≤ i.high * scale
  else i.low * scale < x && x < i.high * scale

/-- The point of the grid of multiples of 10 ^ power that lies in the
interval and is nearest to its value, if there is one. -/
def Interval.pick? (i : Interval) (power : Int) : Option Nat :=
  let num := i.value * Nat.pow 10 (-power).toNat
  let den := i.den * Nat.pow 10 power.toNat
  let floor := num / den
  match i.holds floor power, i.holds (floor + 1) power with
  | true, true => some (roundQuotient num den)
  | true, false => some floor
  | false, true => some (floor + 1)
  | false, false => none

/-- The power of ten of the leading digit of the value. -/
def Interval.leading (i : Interval) : Int :=
  ((Nat.toDigits 10 (i.value * Nat.pow 10 400 / i.den)).length : Int) - 401

/-- The fewest digits that read back, trying `fuel` counts from the count
`count` on, with the power of ten of the last digit. -/
def Interval.shortest (i : Interval) (leading : Int) (count : Nat) : Nat → Nat × Int
  | 0 => (0, 0)
  | fuel + 1 =>
    let power := leading - (count : Int) + 1
    match i.pick? power with
    | some n => (n, power)
    | none => i.shortest leading (count + 1) fuel

/-- The digits without zeros at their end. -/
def stripZeros (digits : List Char) : List Char :=
  (digits.reverse.dropWhile (· == '0')).reverse

/-- Lays out significant digits whose first stands at 10 ^ leading. -/
def layOut (digits : List Char) (leading : Int) : List Char :=
  if -4 ≤ leading ∧ leading < 16 then
    if leading < 0 then
      "0.".toList ++ List.replicate ((-leading).toNat - 1) '0' ++ digits
    else
      let whole := leading.toNat + 1
      let tail := digits.drop whole
      digits.take whole ++ List.replicate (whole - digits.length) '0' ++
        '.' :: (if tail.isEmpty then ['0'] else tail)
  else
    let mark := if leading < 0 then "e-" else "e+"
    let power := Nat.toDigits 10 leading.natAbs
    digits.take 1 ++ (if digits.length ≤ 1 then [] else '.' :: digits.drop 1) ++
      mark.toList ++ List.replicate (2 - power.length) '0' ++ power

/-- The shortest text of a number. -/
def text : Binary64 → String
  | .nan => "nan"
  | .infinite negative => if negative then "-inf" else "inf"
  | .finite negative mantissa exponent =>
    let sign := if negative then ['-'] else []
    if mantissa = 0 then String.ofList (sign ++ "0.0".toList)
    else
      let i := interval mantissa exponent
      let (n, power) := i.shortest i.leading 1 17
      let digits := Nat.toDigits 10 n
      let leading := power + (digits.length : Int) - 1
      String.ofList (sign ++ layOut (stripZeros digits) leading)

end Daybook.Binary64
