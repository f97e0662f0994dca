import ServiceCompiler.Text.Blank

namespace ServiceCompiler.Text

/-!
# Sets of characters given by ranges

The classes of characters outside ASCII are tables of code point ranges.  A range may take only
every second code point, as the alphabets that alternate capitals and small letters do.
-/

/-- The closed ranges from `n` on, given in turn how many code points are left out and how many are taken in. -/
def rangesFrom (n : Nat) : List Nat → List (Nat × Nat)
  | out :: taken :: rest => (n + out, n + out + taken - 1) :: rangesFrom (n + out + taken) rest
  | _ => []

/-- The closed ranges of a table of such numbers, which are hexadecimal. -/
def rangesOf (table : String) : List (Nat × Nat) :=
  rangesFrom 0 ((words table.toList).map fun digits => (natOf? 16 digits).getD 0)

/-- Whether a code point lies in one of the closed ranges. -/
def inRanges (ranges : List (Nat × Nat)) (n : Nat) : Bool :=
  ranges.any fun (lo, hi) => lo ≤ n && n ≤ hi

/-- Whether a code point is one of the capitals of the alphabets, in which they alternate with the small
    letters: the first capital of each, and how many there are. -/
def inAlternating (alphabets : List (Nat × Nat)) (n : Nat) : Bool :=
  alphabets.any fun (first, count) => first ≤ n && n < first + 2 * count && (n - first) % 2 == 0

/-- The image of a code point under the first range that holds it, at a multiple of its stride:
    a range is moved as a whole to the code points that start at `target`. -/
def shiftIn? (ranges : List (Nat × Nat × Nat × Nat)) (n : Nat) : Option Nat :=
  ranges.findSome? fun (lo, hi, stride, target) =>
    if lo ≤ n && n ≤ hi && (n - lo) % stride == 0 then some (target + (n - lo)) else none

end ServiceCompiler.Text
