import ServiceCompiler.Number.Binary
import ServiceCompiler.Text.Basic

namespace ServiceCompiler.Number

/-!
# Shortest decimal digits

The fewest decimal digits that are read back as the same floating-point number, and the layouts in
which they are written.
-/

/-- Decimal digits with a decimal point: `0.d₁d₂… * 10 ^ point`. -/
structure Digits where
  digits : List Char
  point : Int
  deriving DecidableEq, Repr

/-- The number of decimal digits before the point of a ratio of at least one, or minus the number of
    zeros after it: the least `p` with `num / den < 10 ^ p`. -/
def decimalPoint (num den : Nat) : Int :=
  if num ≥ den then ((Nat.toDigits 10 (num / den)).length : Int)
  else
    -- The number of zeros after the point is one less than the digits that `den / num` needs.
    let zeros := (Nat.toDigits 10 ((den - 1) / num)).length - 1
    Int.neg zeros

/-- The decimals of `count` digits on either side of the number.  The nearer one comes first, of two that are
    equally near the one with the even last digit. -/
def Binary.neighbours (b : Binary) (point : Int) (count : Nat) : List Digits :=
  let (num, den) := b.toRatio
  let place : Int := point - count
  let (unitNum, unitDen) : Nat × Nat :=
    if place ≥ 0 then (Nat.pow 10 place.toNat, 1) else (1, Nat.pow 10 (-place).toNat)
  let lower := num * unitDen / (den * unitNum)
  let rest := num * unitDen - lower * (den * unitNum)
  let nearUpper := 2 * rest > den * unitNum ∨ (2 * rest = den * unitNum ∧ lower % 2 = 1)
  (if nearUpper then [lower + 1, lower] else [lower, lower + 1]).map fun c =>
    let text := Nat.toDigits 10 c
    { digits := (text.reverse.dropWhile (· == '0')).reverse
      point := point + (text.length - count : Int) }

/-- The decimals next to the number, those of fewer digits first. -/
def Binary.decimals (b : Binary) : List Digits :=
  if b.mantissa = 0 then [{ digits := [], point := 0 }]
  else
    let (num, den) := b.toRatio
    (List.range 17).flatMap fun i => b.neighbours (decimalPoint num den) (i + 1)

/-- The number that is read from the digits; none when it is too large. -/
def Digits.binary? (d : Digits) : Option Binary :=
  Binary.ofDecimal? ((Text.natOf? 10 d.digits).getD 0) (d.point - d.digits.length)

/-- The fewest digits that are read back as the number. -/
def Binary.shortest (b : Binary) : Digits :=
  (b.decimals.find? (·.binary? == some b)).getD { digits := [], point := 0 }

/-! ### Layouts -/

/-- The digits in positional notation. -/
def Digits.positional (d : Digits) : String :=
  let n := d.digits.length
  if d.digits.isEmpty then "0"
  else if d.point ≤ 0 then
    String.ofList ('0' :: '.' :: List.replicate (-d.point).toNat '0' ++ d.digits)
  else
    let whole := d.point.toNat
    if n ≤ whole then String.ofList (d.digits ++ List.replicate (whole - n) '0')
    else String.ofList (d.digits.take whole ++ '.' :: d.digits.drop whole)

/-- The digits with an exponent of at least `width` digits. -/
def Digits.scientific (width : Nat) (d : Digits) : String :=
  let exponent : Int := if d.digits.isEmpty then 0 else d.point - 1
  let (first, rest) :=
    match d.digits with
    | [] => ('0', [])
    | c :: cs => (c, cs)
  let text := Nat.toDigits 10 exponent.natAbs
  String.ofList
    (first :: (if rest.isEmpty then [] else '.' :: rest)
      ++ 'e' :: (if exponent < 0 then '-' else '+')
      :: List.replicate (width - text.length) '0' ++ text)

end ServiceCompiler.Number
