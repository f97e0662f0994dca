import ServiceCompiler.Number.Binary
import ServiceCompiler.Number.Word
import ServiceCompiler.Text.Octets

namespace ServiceCompiler.Number

/-!
# Durations

Durations are whole numbers of nanoseconds in 64 bits.  They are written with the largest fitting
units (`1h2m3.5s`, `1.5ms`) and read from sequences of numbers with units.
-/

/-- A duration in nanoseconds. -/
abbrev Duration := Int

namespace Duration

/-! ### Writing -/

/-- The fraction `value / 10 ^ places` with its point, without zeros at the end. -/
def fraction (value places : Nat) : List Char :=
  let digits := Nat.toDigits 10 value
  let padded := List.replicate (places - digits.length) '0' ++ digits
  match (padded.reverse.dropWhile (· == '0')).reverse with
  | [] => []
  | kept => '.' :: kept

/-- A value with a decimal fraction of the given number of places. -/
def withFraction (value places : Nat) : List Char :=
  Nat.toDigits 10 (value / Nat.pow 10 places) ++ fraction (value % Nat.pow 10 places) places

/-- A magnitude of nanoseconds as text. -/
def magnitude (n : Nat) : List Char :=
  if n = 0 then ['0', 's']
  else if n < 1000 then Nat.toDigits 10 n ++ ['n', 's']
  else if n < 1000000 then withFraction n 3 ++ ['µ', 's']
  else if n < 1000000000 then withFraction n 6 ++ ['m', 's']
  else
    let seconds := n / 1000000000
    let last :=
      Nat.toDigits 10 (seconds % 60) ++ fraction (n % 1000000000) 9 ++ ['s']
    let minutes := seconds / 60
    if minutes = 0 then last
    else
      let middle := Nat.toDigits 10 (minutes % 60) ++ 'm' :: last
      let hours := minutes / 60
      if hours = 0 then middle else Nat.toDigits 10 hours ++ 'h' :: middle

def text (d : Duration) : String :=
  String.ofList (if d < 0 then '-' :: magnitude d.natAbs else magnitude d.natAbs)

/-! ### Reading -/

/-- Why a text is no duration. -/
inductive Error where
  | invalid
  | missingUnit
  | unknownUnit (unit : String)
  deriving DecidableEq, Repr

/-- An octet as it is shown in an error, by two hexadecimal digits. -/
def shownOctet (b : UInt8) : List Char :=
  let digit := fun n => Nat.digitChar n
  ['\\', 'x', digit (b.toNat / 16), digit (b.toNat % 16)]

/-- A character as it is shown in an error: control characters and all beyond ASCII by their octets. -/
def shownChar (c : Char) : List Char :=
  if c.toNat < 0x20 ∨ 0x80 ≤ c.toNat then
    (Text.Octets.ofString (String.singleton c)).flatMap shownOctet
  else if c = '"' ∨ c = '\\' then ['\\', c]
  else [c]

/-- A text as it is shown in an error. -/
def shown (s : String) : String := String.ofList ('"' :: s.toList.flatMap shownChar ++ ['"'])

/-- The text of a duration error about a given input. -/
def Error.message (input : String) : Error → String
  | .invalid => "time: invalid duration " ++ shown input
  | .missingUnit => "time: missing unit in duration " ++ shown input
  | .unknownUnit unit => "time: unknown unit " ++ shown unit ++ " in duration " ++ shown input

/-- The nanoseconds of a unit. -/
def unit? (s : String) : Option Nat :=
  if s = "ns" then some 1
  else if s = "us" ∨ s = "µs" ∨ s = "μs" then some 1000
  else if s = "ms" then some 1000000
  else if s = "s" then some 1000000000
  else if s = "m" then some 60000000000
  else if s = "h" then some 3600000000000
  else none

/-- The digits of a fraction that count: as many as fit into 63 bits. -/
def fractionDigits (cs : List Char) : Nat × Nat :=
  let step (acc : Nat × Nat × Bool) (c : Char) : Nat × Nat × Bool :=
    let (value, places, full) := acc
    if full || value > (signedLimit - 1) / 10 then (value, places, true)
    else
      let next := value * 10 + (c.toNat - '0'.toNat)
      if next > signedLimit then (value, places, true) else (next, places + 1, false)
  let (value, places, _) := cs.foldl step (0, 0, false)
  (value, places)

/-- The nanoseconds of a fraction of a unit, computed in floating point and cut off. -/
def fractionOf (value places unit : Nat) : Nat :=
  ((do
    let part ← Binary.div? (← Binary.ofRatio? unit 1) (← Binary.ofRatio? (Nat.pow 10 places) 1)
    let product ← Binary.mul? (← Binary.ofRatio? value 1) part
    return product.floor : Option Nat)).getD 0

/-- Reads one number with its unit and gives its nanoseconds and the rest. -/
def readTerm (cs : List Char) : Except Error (Nat × List Char) :=
  let (whole, rest) := cs.span Text.isDigit
  let (decimals, rest, pointed) :=
    match rest with
    | '.' :: more =>
      let (decimals, rest) := more.span Text.isDigit
      (decimals, rest, true)
    | _ => ([], rest, false)
  let value := (Text.natOf? 10 whole).getD 0
  if whole.isEmpty && (!pointed || decimals.isEmpty) then .error .invalid
  else if value > signedLimit then .error .invalid
  else
    let (name, rest) := rest.span fun c => !(c == '.' || Text.isDigit c)
    if name.isEmpty then .error .missingUnit
    else
      match unit? (String.ofList name) with
      | none => .error (.unknownUnit (String.ofList name))
      | some unit =>
        if value > signedLimit / unit then .error .invalid
        else
          let (fraction, places) := fractionDigits decimals
          let total := value * unit + (if fraction > 0 then fractionOf fraction places unit else 0)
          if total > signedLimit then .error .invalid else .ok (total, rest)

/-- Reads terms up to the end of the text and adds them; each term takes at least one character, so
    the length of the text bounds their number. -/
def readTerms : Nat → Nat → List Char → Except Error Nat
  | _, total, [] => .ok total
  | 0, _, _ => .error .invalid
  | fuel + 1, total, cs => do
    let (value, rest) ← readTerm cs
    if total + value > signedLimit then .error .invalid else readTerms fuel (total + value) rest

/-- Reads a duration. -/
def parse (s : String) : Except Error Duration :=
  let (negative, cs) :=
    match s.toList with
    | '-' :: cs => (true, cs)
    | '+' :: cs => (false, cs)
    | cs => (false, cs)
  if cs = ['0'] then .ok 0
  else if cs.isEmpty then .error .invalid
  else do
    let total ← readTerms cs.length 0 cs
    if negative then return -(total : Int)
    else if total ≥ signedLimit then .error .invalid
    else return total

end Duration

end ServiceCompiler.Number
