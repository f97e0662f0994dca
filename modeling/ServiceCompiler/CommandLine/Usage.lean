import ServiceCompiler.CommandLine.Basic
import ServiceCompiler.Files.Tree

namespace ServiceCompiler.CommandLine

open Text

/-!
# Usage errors

Why a command line is not understood, with hints at what may have been meant.
-/

/-! ### Similar words -/

/-- One row of the table of distances after another: `left` is the entry to the left, `corner` the
    one above it. -/
def distanceRow (a : Char) : Nat → Nat → List Char → List Nat → List Nat
  | left, corner, b :: bs, above :: row =>
    let change := if a = b then corner else corner + 1
    let entry := min (min (above + 1) (left + 1)) change
    entry :: distanceRow a entry above bs row
  | _, _, _, _ => []

/-- How many characters have to be put in, taken out or changed to make one word of the other. -/
def distance (a b : List Char) : Nat :=
  let next := fun (row : List Nat) (c : Char) =>
    match row with
    | [] => []
    | corner :: above => (corner + 1) :: distanceRow c (corner + 1) corner b above
  (a.foldl next (List.range (b.length + 1))).getLastD 0

/-- The words that start with a word or are at most two changes away from it. -/
def similar (word : String) (candidates : List String) : List String :=
  candidates.filter fun c =>
    hasLead word.toList c.toList || distance c.toList word.toList ≤ 2

/-! ### Errors -/

/-- What stands where a value was expected. -/
inductive Found where
  | endOfLine
  | longFlag (text : String)
  | shortFlag (text : String)
  deriving DecidableEq, Repr

/-- Why a command line is not understood. -/
inductive UsageError where
  | unknownFlag (flag : String) (similar : List String)
  | unexpectedArgument (text : String)
  | missingValue (flag : Flag) (found : Found)
  | notSwitch (flag : Flag) (value : String)
  | notNumber (flag : Flag) (value : String)
  | notOneOf (flag : Flag) (choices : List String) (value : String)
  /-- The argument names nothing. -/
  | file (argument : Argument) (e : FileError)
  | directory (argument : Argument) (path : String)
  | missing (arguments : List Argument)
  deriving Repr

/-- What a flag takes, as it is named in messages. -/
def FlagKind.valueName : FlagKind → String
  | .switch => "bool"
  | .text => "string"
  | .path => "file"
  | .number => "int"

/-- The words for what stands in the place of a value. -/
def Found.message (flag : Flag) : Found → String
  | .endOfLine => "\"EOL\" (<EOL>)"
  | .longFlag text =>
    quoted text ++ " (long flag); perhaps try " ++ flag.long ++ "=" ++ quoted text ++ "?"
  | .shortFlag text =>
    quoted text ++ " (short flag); perhaps try " ++ flag.long ++ "=" ++ quoted text ++ "?"

def UsageError.message : UsageError → String
  | .unknownFlag flag [] => "unknown flag " ++ flag
  | .unknownFlag flag [s] => "unknown flag " ++ flag ++ ", did you mean " ++ quoted s ++ "?"
  | .unknownFlag flag ss =>
    "unknown flag " ++ flag ++ ", did you mean one of "
      ++ ", ".intercalate (ss.map quoted) ++ "?"
  | .unexpectedArgument text => "unexpected argument " ++ text
  | .missingValue flag found =>
    flag.long ++ ": expected " ++ flag.kind.valueName ++ " value but got " ++ found.message flag
  | .notSwitch flag value =>
    flag.long ++ ": bool value must be true, 1, yes, false, 0 or no but got " ++ quoted value
  | .notNumber flag value =>
    flag.long ++ ": expected a valid 64 bit int but got " ++ quoted value
  | .notOneOf flag choices value =>
    flag.long ++ " must be one of " ++ ",".intercalate (choices.map quoted)
      ++ " but got " ++ quoted value
  | .file argument e => argument.shown ++ ": " ++ e.text
  | .directory argument path =>
    argument.shown ++ ": " ++ quoted path ++ " exists but is a directory"
  | .missing arguments =>
    "expected " ++ quoted (" ".intercalate (arguments.map (·.shown)))

end ServiceCompiler.CommandLine
