import ServiceCompiler.Document.Timestamp
import ServiceCompiler.Number.Binary
import ServiceCompiler.Number.Word

namespace ServiceCompiler.Document

open Text
open Number (Binary)

/-!
# Scalars

What a scalar of a document stands for.  A plain scalar is a number, a truth value, a point in time
or nothing at all when it looks like one, and a text otherwise; a tag may demand one of these.

* `Scalar.ofPlain` is the meaning of a plain scalar.
* `Scalar.resolve` is the meaning of a scalar under a tag.
-/

/-- The meaning of a scalar. -/
inductive Scalar where
  | null
  | flag (b : Bool)
  | integer (n : Int)
  | real (negative : Bool) (magnitude : Binary)
  | infinite (negative : Bool)
  | notANumber
  | time
  | text (s : String)
  deriving DecidableEq, Repr

/-- The short names of the tags. -/
def strTag : String := "!!str"
@[inherit_doc strTag] def nullTag : String := "!!null"
@[inherit_doc strTag] def boolTag : String := "!!bool"
@[inherit_doc strTag] def intTag : String := "!!int"
@[inherit_doc strTag] def floatTag : String := "!!float"
@[inherit_doc strTag] def timeTag : String := "!!timestamp"
@[inherit_doc strTag] def binaryTag : String := "!!binary"
@[inherit_doc strTag] def mergeTag : String := "!!merge"
@[inherit_doc strTag] def seqTag : String := "!!seq"
@[inherit_doc strTag] def mapTag : String := "!!map"

namespace Scalar

/-- The tag of a meaning. -/
def tag : Scalar → String
  | .null => nullTag
  | .flag _ => boolTag
  | .integer _ => intTag
  | .real .. => floatTag
  | .infinite _ => floatTag
  | .notANumber => floatTag
  | .time => timeTag
  | .text _ => strTag

/-! ### Numbers -/

/-- A sign at the front. -/
def sign : List Char → Bool × List Char
  | '-' :: cs => (true, cs)
  | '+' :: cs => (false, cs)
  | cs => (false, cs)

/-- The digits of a number without sign in the base that its first characters tell. -/
def magnitude? : List Char → Option Nat
  | '0' :: b :: d :: cs =>
    if b = 'b' ∨ b = 'B' then natOf? 2 (d :: cs)
    else if b = 'o' ∨ b = 'O' then natOf? 8 (d :: cs)
    else if b = 'x' ∨ b = 'X' then natOf? 16 (d :: cs)
    else natOf? 8 (b :: d :: cs)
  | '0' :: cs => if cs.isEmpty then some 0 else natOf? 8 cs
  | cs => natOf? 10 cs

/-- The number that a sign and a magnitude give, when it fits into 64 bits with a sign. -/
def signed? (negative : Bool) (n : Nat) : Option Int :=
  if negative then (if n ≤ Number.signedLimit then some (Int.neg n) else none)
  else if n < Number.signedLimit then some n else none

/-- A number in a given base after a mark; it may have a sign of its own. -/
def marked? (base : Nat) (cs : List Char) : Option Int := do
  let (negative, digits) := sign cs
  let n ← natOf? base digits
  signed? negative n

/-- An integer, of 64 bits with or without sign. -/
def integer? (cs : List Char) : Option Int :=
  let (negative, digits) := sign cs
  match magnitude? digits with
  | some n =>
    match signed? negative n with
    | some i => some i
    | none => if cs = digits ∧ n < Number.wordSize then some n else none
  | none => none

/-- An integer behind a mark of its base. -/
def markedInteger? : List Char → Option Int
  | '0' :: 'b' :: cs => marked? 2 cs
  | '-' :: '0' :: 'b' :: cs => marked? 2 ('-' :: cs)
  | '0' :: 'o' :: cs => marked? 8 cs
  | '-' :: '0' :: 'o' :: cs => marked? 8 ('-' :: cs)
  | _ => none

/-- The exponent at the end of a decimal number. -/
def exponent? : List Char → Option Int
  | [] => some 0
  | e :: cs =>
    if e = 'e' ∨ e = 'E' then
      let (negative, digits) := sign cs
      (natOf? 10 digits).map fun n => if negative then Int.neg n else n
    else none

/-- A decimal number: digits with a point in front, inside or behind, and an exponent. -/
def decimal? (cs : List Char) : Option (Bool × Option Binary) := do
  let (negative, cs) := sign cs
  let whole := cs.takeWhile isDigit
  let rest := cs.dropWhile isDigit
  let (fraction, rest) :=
    match rest with
    | '.' :: tail => (tail.takeWhile isDigit, tail.dropWhile isDigit)
    | _ => ([], rest)
  if whole.isEmpty && fraction.isEmpty then none
  let exponent ← exponent? rest
  let digits ← natOf? 10 (whole ++ fraction)
  return (negative, Binary.ofDecimal? digits (exponent - fraction.length))

/-- Whether every underscore stands between two digits; `afterDigit` and `afterUnderscore` tell what
    came before. -/
def separatesDigits (isDigit : Char → Bool) : Bool → Bool → List Char → Bool
  | _, afterUnderscore, [] => !afterUnderscore
  | afterDigit, afterUnderscore, c :: cs =>
    if isDigit c then separatesDigits isDigit true false cs
    else if c = '_' then afterDigit && separatesDigits isDigit false true cs
    else !afterUnderscore && separatesDigits isDigit false false cs

/-- A real number; one that is too large is none. -/
def real? (cs : List Char) : Option Scalar :=
  match decimal? cs with
  | some (negative, some b) => some (.real negative b)
  | _ => none

/-! ### Plain scalars -/

/-- The words with a meaning of their own. -/
def word? (s : String) : Option Scalar :=
  if ["true", "True", "TRUE"].contains s then some (.flag true)
  else if ["false", "False", "FALSE"].contains s then some (.flag false)
  else if ["", "~", "null", "Null", "NULL"].contains s then some .null
  else if [".nan", ".NaN", ".NAN"].contains s then some .notANumber
  else if [".inf", ".Inf", ".INF", "+.inf", "+.Inf", "+.INF"].contains s then some (.infinite false)
  else if ["-.inf", "-.Inf", "-.INF"].contains s then some (.infinite true)
  else none

/-- The number that a text beginning with a digit or a sign stands for.  Underscores count for
    nothing. -/
def number? (cs : List Char) : Option Scalar :=
  let plain := cs.filter (· != '_')
  ((integer? plain).map .integer).orElse fun _ =>
    (real? plain).orElse fun _ => (markedInteger? plain).map .integer

/-- The meaning of a plain scalar; points in time are looked for only on demand. -/
def ofPlainWith (times : Bool) (s : String) : Scalar :=
  match word? s with
  | some meaning => meaning
  | none =>
    match s.toList with
    | [] => .null
    | c :: cs =>
      if c = '.' then
        if separatesDigits isDigit false false (c :: cs) then
          (real? ((c :: cs).filter (· != '_'))).getD (.text s)
        else .text s
      else if c = '+' ∨ c = '-' ∨ isDigit c then
        if times && isTimestamp (c :: cs) then .time else (number? (c :: cs)).getD (.text s)
      else .text s

/-- The meaning of a plain scalar. -/
def ofPlain (s : String) : Scalar := ofPlainWith true s

/-! ### Tags -/

/-- Tags that demand a meaning. -/
def demanding : List String := [boolTag, intTag, floatTag, nullTag, timeTag]

/-- An integer as a real number. -/
def toReal? : Scalar → Option Scalar
  | .integer n =>
    if n < Number.signedLimit then (Binary.ofRatio? n.natAbs 1).map (.real (decide (n < 0))) else none
  | _ => none

/-- The meaning of a scalar under a tag; none when it is not what the tag demands.  Tags that demand
    nothing make it a text. -/
def resolve (tag value : String) : Option Scalar :=
  if demanding.contains tag then
    let meaning := ofPlainWith (tag == timeTag) value
    if meaning.tag = tag then some meaning
    else if tag = floatTag then meaning.toReal?
    else none
  else some (.text value)

end Scalar

end ServiceCompiler.Document
