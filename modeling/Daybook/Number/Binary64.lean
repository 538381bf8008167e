/-
Double precision numbers as exact values.

A number is a sign, a natural mantissa and a power of two, so that every
finite value is the rational it denotes.  Zero has the least exponent.
Reading a decimal rounds to the nearest such value, a tie to the even
mantissa; what is too large is infinite.
-/

namespace Daybook

/-- A double precision number: `finite` stands for mantissa · 2 ^ exponent
under its sign. -/
inductive Binary64 where
  | finite (negative : Bool) (mantissa : Nat) (exponent : Int)
  | infinite (negative : Bool)
  | nan
deriving DecidableEq

namespace Binary64

/-- The exponent of the least positive value. -/
def minExponent : Int := -1074

/-- The largest exponent of a finite value. -/
def maxExponent : Int := 971

/-- Zero under a sign. -/
def zero (negative : Bool) : Binary64 := .finite negative 0 minExponent

/-- The quotient rounded to the nearest natural number, a tie to the even
one. -/
def roundQuotient (num den : Nat) : Nat :=
  let q := num / den
  let r := num % den
  if 2 * r < den then q
  else if den < 2 * r then q + 1
  else if q % 2 = 0 then q else q + 1

/-- The value nearest to the positive quotient `num / den`. -/
def ofQuotient (negative : Bool) (num den : Nat) : Binary64 :=
  let guess : Int := (Nat.log2 num : Int) - (Nat.log2 den : Int)
  let atLeast : Bool := den * Nat.pow 2 guess.toNat ≤ num * Nat.pow 2 (-guess).toNat
  let exponent := max minExponent ((if atLeast then guess else guess - 1) - 52)
  let mantissa := roundQuotient (num * Nat.pow 2 (-exponent).toNat) (den * Nat.pow 2 exponent.toNat)
  let (mantissa, exponent) :=
    if mantissa = Nat.pow 2 53 then (Nat.pow 2 52, exponent + 1) else (mantissa, exponent)
  if mantissa = 0 then zero negative
  else if maxExponent < exponent then .infinite negative
  else .finite negative mantissa exponent

/-- The value nearest to digits · 10 ^ power. -/
def ofDecimal (negative : Bool) (digits : Nat) (power : Int) : Binary64 :=
  let magnitude : Int := ((Nat.toDigits 10 digits).length : Int) + power
  if digits = 0 ∨ magnitude < -330 then zero negative
  else if 330 < magnitude then .infinite negative
  else ofQuotient negative (digits * Nat.pow 10 power.toNat) (Nat.pow 10 (-power).toNat)

/-- The value without its fractional part, if it is finite. -/
def truncate : Binary64 → Option Int
  | .finite negative mantissa exponent =>
    let size : Nat := mantissa * Nat.pow 2 exponent.toNat / Nat.pow 2 (-exponent).toNat
    some (if negative then -(size : Int) else (size : Int))
  | _ => none

/-- The whole number that the value is, if it is one. -/
def whole? : Binary64 → Option Int
  | .finite negative mantissa exponent =>
    if mantissa * Nat.pow 2 exponent.toNat % Nat.pow 2 (-exponent).toNat = 0 then
      truncate (.finite negative mantissa exponent)
    else none
  | _ => none

/-- Whether the value is zero, under either sign. -/
def isZero : Binary64 → Bool
  | .finite _ mantissa _ => mantissa == 0
  | _ => false

end Binary64
end Daybook
