import ServiceCompiler.Text.Quoted

namespace ServiceCompiler.Code

/-!
# Lines of code

Generated code is a list of lines.  A block is a head line, the lines of its body one step further
in, and a closing brace; keyed literals align the values of their entries.
-/

/-- A line one step further in; an empty line stays empty. -/
def indentLine (line : String) : String := if line = "" then "" else "\t" ++ line

/-- Lines one step further in. -/
def indent (lines : List String) : List String := lines.map indentLine

/-- A block: its head, its body and the closing brace followed by `tail`. -/
def blockWith (tail head : String) (body : List String) : List String :=
  (head ++ " \x7b") :: indent body ++ ["\x7d" ++ tail]

def block (head : String) (body : List String) : List String := blockWith "" head body

/-- A case of a choice: its head and its body. -/
def caseOf (head : String) (body : List String) : List String := ("case " ++ head ++ ":") :: indent body

def call (function : String) (arguments : List String) : String :=
  function ++ "(" ++ ", ".intercalate arguments ++ ")"

/-- A literal with braces around what it holds. -/
def braced (type inner : String) : String := type ++ "\x7b" ++ inner ++ "\x7d"

/-! ### Keyed literals -/

/-- One entry of a keyed literal. -/
abbrev Entry := String × String

/-- The unit in which logarithms are counted. -/
def logUnit : Nat := 0x100000000

/-- The binary logarithm of a size in units, taken as straight between two powers of two. -/
def scaledLog (size : Nat) : Nat :=
  let power := Nat.log2 size
  power * logUnit + (size - Nat.pow 2 power) * (logUnit / Nat.pow 2 power)

/-- Whether a key starts a new column: keys stay within a factor of five halves of the geometric
    mean of the sizes before them, once one of two neighbours has more than forty octets.  The mean
    comes from the mean of the logarithms, by a line that is straight between two powers of two
    again. -/
def breaksColumn (sizes : List Nat) (previous size : Nat) : Bool :=
  if sizes.isEmpty || (previous ≤ 40 && size ≤ 40) then false
  else
    let unit := sizes.length * logUnit
    let sum := (sizes.map scaledLog).foldl Nat.add 0
    let mean := Nat.pow 2 (sum / unit) * (unit + sum % unit)
    5 * size * unit ≤ 2 * mean || 5 * mean ≤ 2 * size * unit

/-- The entries cut into columns; the sizes are those of the current column, last one first. -/
def columnsFrom : List Nat → List Entry → List Entry → List (List Entry)
  | _, current, [] => [current.reverse]
  | sizes, current, entry :: rest =>
    let size := Text.octetCount entry.1
    if breaksColumn sizes (sizes.headD 0) size then
      current.reverse :: columnsFrom [size] [entry] rest
    else columnsFrom (size :: sizes) (entry :: current) rest

/-- The lines of one column, values aligned behind the longest key. -/
def alignColumn (entries : List Entry) : List String :=
  let width := (entries.map fun e => e.1.length).foldl max 0
  entries.map fun (key, value) =>
    key ++ ":" ++ String.ofList (List.replicate (width - key.length + 1) ' ') ++ value ++ ","

/-- The lines of a keyed literal after `head`: on one line up to one entry, otherwise an entry a
    line in the order of the keys. -/
def keyed (head : String) (entries : List Entry) : List String :=
  match entries with
  | [] => [braced head ""]
  | [(key, value)] => [braced head (key ++ ": " ++ value)]
  | _ =>
    let sorted := entries.mergeSort fun a b => Text.before a.1 b.1
    (head ++ "\x7b") :: indent ((columnsFrom [] [] sorted).flatMap alignColumn) ++ ["\x7d"]

end ServiceCompiler.Code
