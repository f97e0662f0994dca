import ServiceCompiler.Text.Basic

namespace ServiceCompiler.Document

/-!
# Timestamps

Which plain texts are read as points in time: a date with a year of four digits, or such a date with
a time of day.
-/

namespace Timestamp

/-- One or two digits. -/
def number? : List Char → Option (Nat × List Char)
  | a :: cs => do
    if !Text.isDigit a then none
    match cs with
    | b :: rest =>
      if Text.isDigit b then return (10 * (a.toNat - 48) + (b.toNat - 48), rest)
      return (a.toNat - 48, cs)
    | [] => return (a.toNat - 48, [])
  | [] => none

/-- A number in a range. -/
def numberIn? (low high : Nat) (cs : List Char) : Option (Nat × List Char) := do
  let (n, rest) ← number? cs
  if low ≤ n ∧ n ≤ high then return (n, rest) else none

/-- A given character. -/
def char? (c : Char) : List Char → Option (List Char)
  | d :: cs => if c = d then some cs else none
  | [] => none

/-- The number of days of a month. -/
def daysIn (year month : Nat) : Nat :=
  if month = 2 then
    if year % 4 = 0 ∧ (year % 100 ≠ 0 ∨ year % 400 = 0) then 29 else 28
  else if month = 4 ∨ month = 6 ∨ month = 9 ∨ month = 11 then 30
  else 31

/-- A date; the day is checked against the month. -/
def date? (cs : List Char) : Option (List Char) := do
  let year ← Text.natOf? 10 (cs.take 4)
  let rest ← char? '-' (cs.drop 4)
  let (month, rest) ← numberIn? 1 12 rest
  let rest ← char? '-' rest
  let (_, rest) ← numberIn? 1 (daysIn year month) rest
  return rest

/-- Leaves out a fraction of a second. -/
def dropFraction : List Char → List Char
  | mark :: d :: cs =>
    if (mark == '.' || mark == ',') && Text.isDigit d then cs.dropWhile Text.isDigit else mark :: d :: cs
  | cs => cs

/-- A time of day. -/
def time? (cs : List Char) : Option (List Char) := do
  let (_, rest) ← numberIn? 0 23 cs
  let rest ← char? ':' rest
  let (_, rest) ← numberIn? 0 59 rest
  let rest ← char? ':' rest
  let (_, rest) ← numberIn? 0 59 rest
  return dropFraction rest

/-- Two digits up to a bound. -/
def isPair (high : Nat) (a b : Char) : Bool :=
  Text.isDigit a && Text.isDigit b && 10 * (a.toNat - 48) + (b.toNat - 48) ≤ high

/-- Whether the text is an offset from universal time. -/
def isZone : List Char → Bool
  | ['Z'] => true
  | [sign, a, b, ':', c, d] => (sign == '+' || sign == '-') && isPair 24 a b && isPair 60 c d
  | _ => false

/-- Whether what follows a date is nothing or a time of day: after a `T` with an offset, after spaces
    without. -/
def isClock : List Char → Bool
  | [] => true
  | 'T' :: cs => ((time? cs).map isZone).getD false
  | 't' :: cs => ((time? cs).map isZone).getD false
  | ' ' :: cs => ((time? (cs.dropWhile (· == ' '))).map List.isEmpty).getD false
  | _ => false

end Timestamp

def isTimestamp (cs : List Char) : Bool :=
  (cs.takeWhile Text.isDigit).length == 4 && ((Timestamp.date? cs).map Timestamp.isClock).getD false

end ServiceCompiler.Document
