import ServiceCompiler.Json.Basic

namespace ServiceCompiler.Json

open Text

/-!
# Reading JSON

Every part is read off the beginning of the text and leaves the rest; the first character that does
not fit is the error.
-/

/-- Whether the character may stand between the parts of a value. -/
def isSpace (c : Char) : Bool := c == ' ' || c == '\t' || c == '\n' || c == '\r'

/-- The text without the space at its beginning. -/
def skipSpace (cs : List Char) : List Char := cs.dropWhile isSpace

/-! ### Texts -/

/-- The character of an escape of one letter. -/
def escapeChar? (c : Char) : Option Char :=
  match c with
  | '"' => some '"'
  | '\\' => some '\\'
  | '/' => some '/'
  | 'b' => some '\x08'
  | 'f' => some '\x0c'
  | 'n' => some '\n'
  | 'r' => some '\r'
  | 't' => some '\t'
  | _ => none

/-- The code of four hexadecimal digits. -/
def code? (a b c d : Char) : Option Nat := natOf? 16 [a, b, c, d]

/-- The error in an escape by code that is not one, given what follows its letter.  Where the text ends
    before anything is wrong, that is the error. -/
def codeError (cs : List Char) : JsonError :=
  let escape := Octets.ofString (String.ofList ('\\' :: 'u' :: cs))
  if escape.length < 6 && cs.all fun c => (digitValue? c).isSome then .unexpectedEnd
  else .badEscape (escape.take 6)

/-- The codes of a quoted text after its opening mark, of characters and of halves of them. -/
def readUnits : List Char → Except JsonError (List Nat × List Char)
  | [] => .error .unexpectedEnd
  | '"' :: rest => .ok ([], rest)
  | ['\\'] => .error .unexpectedEnd
  | '\\' :: 'u' :: a :: b :: c :: d :: rest =>
    match code? a b c d with
    | none => .error (codeError (a :: b :: c :: d :: rest))
    | some n => do
      let (units, rest) ← readUnits rest
      return (n :: units, rest)
  | '\\' :: 'u' :: rest => .error (codeError rest)
  | '\\' :: e :: rest =>
    match escapeChar? e with
    | none => .error (.badEscape ((Text.Octets.ofString (String.ofList ['\\', e])).take 2))
    | some c => do
      let (units, rest) ← readUnits rest
      return (c.toNat :: units, rest)
  | c :: rest =>
    if c.toNat < 0x20 then .error (.unexpected c "in string")
    else do
      let (units, rest) ← readUnits rest
      return (c.toNat :: units, rest)

/-- Whether a code is the first half of a character. -/
def isFirstHalf (n : Nat) : Bool := 0xd800 ≤ n && n ≤ 0xdbff

/-- Whether a code is the second half of a character. -/
def isSecondHalf (n : Nat) : Bool := 0xdc00 ≤ n && n ≤ 0xdfff

/-- The character of a code; a half without its other half is replaced. -/
def unitChar (n : Nat) : Char := if isFirstHalf n || isSecondHalf n then '�' else Char.ofNat n

/-- The characters of codes; two halves that belong together make one. -/
def joinUnits : List Nat → List Char
  | [] => []
  | [n] => [unitChar n]
  | n :: m :: rest =>
    if isFirstHalf n && isSecondHalf m then
      Char.ofNat (0x10000 + (n - 0xd800) * 0x400 + (m - 0xdc00)) :: joinUnits rest
    else unitChar n :: joinUnits (m :: rest)

/-- A quoted text after its opening mark. -/
def readText (cs : List Char) : Except JsonError (String × List Char) := do
  let (units, rest) ← readUnits cs
  return (String.ofList (joinUnits units), rest)

/-! ### Numbers and words -/

/-- How far a number has been read. -/
inductive NumberState where
  | start
  | minus
  | zero
  | whole
  | point
  | fraction
  | mark
  | sign
  | exponent
  deriving DecidableEq, Repr

namespace NumberState

/-- Whether an exponent begins with the character. -/
def isMark (c : Char) : Bool := c == 'e' || c == 'E'

/-- What may follow: characters, and how far the number has been read behind them. -/
def followers : NumberState → List ((Char → Bool) × NumberState)
  | .start => [((· == '-'), .minus), ((· == '0'), .zero), (isDigit, .whole)]
  | .minus => [((· == '0'), .zero), (isDigit, .whole)]
  | .zero => [((· == '.'), .point), (isMark, .mark)]
  | .whole => [(isDigit, .whole), ((· == '.'), .point), (isMark, .mark)]
  | .point => [(isDigit, .fraction)]
  | .fraction => [(isDigit, .fraction), (isMark, .mark)]
  | .mark => [((fun c => c == '+' || c == '-'), .sign), (isDigit, .exponent)]
  | .sign | .exponent => [(isDigit, .exponent)]

/-- How far the number has been read behind one more character, if that may follow. -/
def next? (s : NumberState) (c : Char) : Option NumberState := (s.followers.find? (·.1 c)).map (·.2)

def isEnd (s : NumberState) : Bool := s ∈ [.zero, .whole, .fraction, .exponent]

/-- The rest of a number. -/
def read : NumberState → List Char → Except JsonError (List Char × List Char)
  | s, [] => if s.isEnd then .ok ([], []) else .error .unexpectedEnd
  | s, c :: rest =>
    match s.next? c with
    | some s' => do
      let (literal, rest) ← s'.read rest
      return (c :: literal, rest)
    | none => if s.isEnd then .ok ([], c :: rest) else .error (.unexpected c "in numeric literal")

end NumberState

def readNumber (cs : List Char) : Except JsonError (String × List Char) := do
  let (literal, rest) ← NumberState.start.read cs
  return (String.ofList literal, rest)

/-- The rest of a word whose first letter was read. -/
def readWord (word : String) : List Char → List Char → Except JsonError (List Char)
  | [], cs => .ok cs
  | w :: ws, cs =>
    if cs.head? = some w then readWord word ws (cs.drop 1)
    else .error (.here ("in literal " ++ word ++ " (expecting " ++ quotedChar w ++ ")") cs)

/-! ### Values -/

/-- What follows in a list or record after a part: whether another part comes, and the rest. -/
def readNext (close : Char) (place : String) (cs : List Char) : Except JsonError (Bool × List Char) :=
  match skipSpace cs with
  | [] => .error .unexpectedEnd
  | c :: rest =>
    if c = ',' then .ok (true, rest)
    else if c = close then .ok (false, rest)
    else .error (.here place (c :: rest))

/-- The name of a member and the colon after it. -/
def readKey (cs : List Char) : Except JsonError (String × List Char) :=
  match skipSpace cs with
  | [] => .error .unexpectedEnd
  | '"' :: rest => do
    let (key, rest) ← readText rest
    match skipSpace rest with
    | [] => .error .unexpectedEnd
    | ':' :: rest => return (key, rest)
    | rest => .error (.here "after object key" rest)
  | cs => .error (.here "looking for beginning of object key string" cs)

/-- A member of a record, given how values are read. -/
def readMember (value : List Char → Except JsonError (Json × List Char)) (cs : List Char) :
    Except JsonError ((String × Json) × List Char) := do
  let (key, rest) ← readKey cs
  let (j, rest) ← value rest
  return ((key, j), rest)

section Parts

variable {α : Type} (part : List Char → Except JsonError (α × List Char)) (close : Char) (place : String)

/-- The parts of a list or record, at least one, with the closing bracket.  The fuel bounds their number. -/
def readParts : Nat → List Char → Except JsonError (List α × List Char)
  | 0, _ => .error .unexpectedEnd
  | fuel + 1, cs => do
    let (a, rest) ← part cs
    let (more, rest) ← readNext close place rest
    if more then
      let (as, rest) ← readParts fuel rest
      return (a :: as, rest)
    else return ([a], rest)

/-- The parts of a list or record, if there are any, with the closing bracket. -/
def readAll (cs : List Char) : Except JsonError (List α × List Char) :=
  if (skipSpace cs).head? = some close then .ok ([], (skipSpace cs).tail)
  else readParts part close place (cs.length + 1) cs

end Parts

/-- A value, given what follows the brackets of lists and records. -/
def readWith (list record : List Char → Except JsonError (Json × List Char)) (cs : List Char) :
    Except JsonError (Json × List Char) :=
  match skipSpace cs with
  | [] => .error .unexpectedEnd
  | '\x7b' :: rest => record rest
  | '[' :: rest => list rest
  | '"' :: rest => do
    let (s, rest) ← readText rest
    return (.text s, rest)
  | 't' :: rest => do return (.flag true, ← readWord "true" ['r', 'u', 'e'] rest)
  | 'f' :: rest => do return (.flag false, ← readWord "false" ['a', 'l', 's', 'e'] rest)
  | 'n' :: rest => do return (.null, ← readWord "null" ['u', 'l', 'l'] rest)
  | c :: rest =>
    if (NumberState.start.next? c).isSome then do
      let (literal, rest) ← readNumber (c :: rest)
      return (.number literal, rest)
    else .error (.here "looking for beginning of value" (c :: rest))

/-- A value inside which lists and records may be nested to the given depth. -/
def readValue : Nat → List Char → Except JsonError (Json × List Char)
  | 0 => readWith (fun _ => .error .tooDeep) (fun _ => .error .tooDeep)
  | depth + 1 =>
    readWith
      (fun cs => do
        let (items, rest) ← readAll (readValue depth) ']' "after array element" cs
        return (.list items, rest))
      (fun cs => do
        let (members, rest) ← readAll (readMember (readValue depth)) '\x7d' "after object key:value pair" cs
        return (.record members, rest))

/-- How deeply lists and records may be nested. -/
def nestingLimit : Nat := 10000

/-- The value that a text holds. -/
def parse (text : String) : Except JsonError Json := do
  let cs := text.toList
  let (value, rest) ← readValue nestingLimit cs
  match skipSpace rest with
  | [] => return value
  | rest => .error (.here "after top-level value" rest)

end ServiceCompiler.Json
