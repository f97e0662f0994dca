import ServiceCompiler.Number.Shortest
import ServiceCompiler.Text.Octets

namespace ServiceCompiler

open Text

/-!
# JSON values

Values as they stand in a text: numbers keep their literal, and records keep their members in order,
repeated names included.
-/

/-- A JSON value. -/
inductive Json where
  | null
  | flag (b : Bool)
  | number (literal : String)
  | text (s : String)
  | list (items : List Json)
  | record (members : List (String × Json))
  deriving Repr

/-- Why a text is refused. -/
inductive JsonError where
  /-- The text ends too early. -/
  | unexpectedEnd
  /-- A character stands where it may not. -/
  | unexpected (c : Char) (place : String)
  /-- What follows a backslash stands for no character. -/
  | badEscape (escape : Octets)
  /-- Lists and records are nested too deeply. -/
  | tooDeep
  /-- The value at a path is of the wrong kind. -/
  | mismatch (path : List String) (value target : String)
  deriving DecidableEq, Repr

namespace JsonError

/-- A name as it stands in a path. -/
def pathName (name : String) : String :=
  String.ofList (name.toList.flatMap fun c =>
    if c = '~' then ['~', '0'] else if c = '/' then ['~', '1'] else [c])

/-- An escape as it is shown: between backquotes, or quoted when it holds anything unusual. -/
def shownEscape (escape : Octets) : String :=
  let isPlain := fun (c : Char) =>
    isPrintable c && !isBlank c && c != '\x60' && c.toNat != 0xfffd
  if escape.toChars.all isPlain then "\x60" ++ escape.toText ++ "\x60" else escape.quoted

/-- The text of an error. -/
def message : JsonError → String
  | .unexpectedEnd => "unexpected end of JSON input"
  | .unexpected c place => "invalid character " ++ quotedChar c ++ " " ++ place
  | .badEscape escape => "invalid escape sequence " ++ shownEscape escape ++ " in string"
  | .tooDeep => "exceeded max depth"
  | .mismatch path value target =>
    let field := ".".intercalate (path.map pathName)
    "json: cannot unmarshal " ++ value ++ " into Go "
      ++ (if field = "" then "value" else "struct field ." ++ field) ++ " of type " ++ target

/-- The error at the beginning of the rest of a text. -/
def here (place : String) : List Char → JsonError
  | [] => .unexpectedEnd
  | c :: _ => .unexpected c place

end JsonError

namespace Json

/-! ### Numbers -/

/-- The sign, the digits and the decimal exponent of a literal. -/
def literalParts (literal : String) : Bool × Nat × Int :=
  let (negative, cs) := match literal.toList with
    | '-' :: rest => (true, rest)
    | rest => (false, rest)
  let (mantissa, power) := cs.span fun c => c != 'e' && c != 'E'
  let (whole, fraction) := mantissa.span (· != '.')
  let digits := whole ++ fraction.drop 1
  let exponent : Int := match power.drop 1 with
    | '-' :: rest => Int.neg ((natOf? 10 rest).getD 0)
    | '+' :: rest => (natOf? 10 rest).getD 0
    | rest => (natOf? 10 rest).getD 0
  (negative, (natOf? 10 digits).getD 0, exponent - (fraction.length - 1 : Nat))

/-- The floating-point number of a literal; none when it is too large. -/
def magnitude? (literal : String) : Option Number.Binary :=
  let (_, digits, exponent) := literalParts literal
  Number.Binary.ofDecimal? digits exponent

mutual

/-- The first number that is too large: its path and its literal. -/
def tooLarge? : Json → Option (List String × String)
  | .number literal => if (magnitude? literal).isNone then some ([], literal) else none
  | .list items => tooLargeItem? 0 items
  | .record members => tooLargeMember? members
  | _ => none

/-- The first number among items that is too large; the first item has the given number. -/
def tooLargeItem? : Nat → List Json → Option (List String × String)
  | _, [] => none
  | n, item :: rest =>
    match tooLarge? item with
    | some (path, literal) => some (decimal n :: path, literal)
    | none => tooLargeItem? (n + 1) rest

/-- The first number among members that is too large. -/
def tooLargeMember? : List (String × Json) → Option (List String × String)
  | [] => none
  | (key, value) :: rest =>
    match tooLarge? value with
    | some (path, literal) => some (key :: path, literal)
    | none => tooLargeMember? rest

end

end Json

end ServiceCompiler
