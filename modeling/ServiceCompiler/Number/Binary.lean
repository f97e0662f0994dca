namespace ServiceCompiler.Number

/-!
# Binary floating point

Finite numbers of 64-bit floating point as exact integers `mantissa * 2 ^ exponent`.  A ratio is
rounded to the nearest such number, a tie going to the even mantissa; what is too large has no
representation.
-/

/-- A magnitude `mantissa * 2 ^ exponent`.  A normalized mantissa has 53 bits, or fewer at the least
    exponent. -/
structure Binary where
  mantissa : Nat
  exponent : Int
  deriving DecidableEq, Repr

namespace Binary

/-- The least exponent. -/
def minExponent : Int := -1074

/-- The greatest exponent. -/
def maxExponent : Int := 971

/-- The least mantissa of 53 bits. -/
def leastMantissa : Nat := 0x10000000000000

/-- The least number of more than 53 bits. -/
def mantissaLimit : Nat := 0x20000000000000

/-- The quotient rounded to the nearest integer, a tie going to the even one. -/
def roundDiv (num den : Nat) : Nat :=
  let q := num / den
  let r := num % den
  if 2 * r < den then q
  else if 2 * r > den then q + 1
  else if q % 2 = 0 then q else q + 1

/-- The ratio `num / den` measured in units of `2 ^ exponent`, as a ratio. -/
def scale (num den : Nat) (exponent : Int) : Nat × Nat :=
  if exponent ≥ 0 then (num, den * Nat.pow 2 exponent.toNat)
  else (num * Nat.pow 2 (-exponent).toNat, den)

/-- The exponent at which the ratio has a mantissa of 53 bits, not below the least one. -/
def exponentOf (num den : Nat) : Int :=
  let guess : Int := (Nat.log2 num : Int) - (Nat.log2 den : Int) - 52
  let (n, d) := scale num den guess
  let exponent :=
    if n / d < leastMantissa then guess - 1
    else if n / d ≥ mantissaLimit then guess + 1
    else guess
  if exponent < minExponent then minExponent else exponent

/-- The number nearest to a ratio with a positive denominator; none when it is too large. -/
def ofRatio? (num den : Nat) : Option Binary :=
  if num = 0 then some { mantissa := 0, exponent := minExponent }
  else
    let exponent := exponentOf num den
    let (n, d) := scale num den exponent
    let m := roundDiv n d
    let result : Binary :=
      if m = mantissaLimit then { mantissa := leastMantissa, exponent := exponent + 1 }
      else { mantissa := m, exponent }
    if result.exponent > maxExponent then none else some result

/-- The number nearest to `digits * 10 ^ exponent`; none when it is too large.  Exponents far out of
    range are decided without computing the power. -/
def ofDecimal? (digits : Nat) (exponent : Int) : Option Binary :=
  let size : Int := (Nat.toDigits 10 digits).length + exponent
  if digits = 0 ∨ size < -330 then some { mantissa := 0, exponent := minExponent }
  else if size > 320 then none
  else if exponent ≥ 0 then ofRatio? (digits * Nat.pow 10 exponent.toNat) 1
  else ofRatio? digits (Nat.pow 10 (-exponent).toNat)

/-- The value as a ratio. -/
def toRatio (b : Binary) : Nat × Nat :=
  if b.exponent ≥ 0 then (b.mantissa * Nat.pow 2 b.exponent.toNat, 1)
  else (b.mantissa, Nat.pow 2 (-b.exponent).toNat)

/-- The integer part. -/
def floor (b : Binary) : Nat :=
  let (n, d) := b.toRatio
  n / d

/-- Whether the value is an integer. -/
def isIntegral (b : Binary) : Bool :=
  let (n, d) := b.toRatio
  n % d == 0

/-- The rounded product of a number and an integer. -/
def mul? (b : Binary) (c : Binary) : Option Binary :=
  let (n, d) := b.toRatio
  let (m, e) := c.toRatio
  ofRatio? (n * m) (d * e)

/-- The rounded quotient of two numbers, the second one positive. -/
def div? (b : Binary) (c : Binary) : Option Binary :=
  let (n, d) := b.toRatio
  let (m, e) := c.toRatio
  ofRatio? (n * e) (d * m)

end Binary

end ServiceCompiler.Number
