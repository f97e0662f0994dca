import ServiceCompiler.Document.Basic
import ServiceCompiler.Document.Chars
import ServiceCompiler.Document.Scalar

namespace ServiceCompiler.Document

open Text

/-!
# Documents as YAML

The block form.  A text is written plain where that reads back as the same text, as a literal block
when it has several lines, and between quotes otherwise.
-/

/-! ### Styles of texts -/

/-- How a text is written. -/
inductive TextStyle where
  | plain
  | single
  | double
  | literal
  deriving DecidableEq, Repr

/-- Whether some two neighbours satisfy the predicates in order. -/
def hasPair (p q : Char → Bool) : List Char → Bool
  | a :: b :: cs => (p a && q b) || hasPair p q (b :: cs)
  | _ => false

/-- Whether a colon stands before a gap or at the end. -/
def hasMappingColon : List Char → Bool
  | [] => false
  | c :: cs => (c == ':' && (cs.isEmpty || (cs.head?.map isGap).getD false)) || hasMappingColon cs

/-- Whether the beginning of a text means something in a block. -/
def startsIndicator (cs : List Char) : Bool :=
  let alone := fun (rest : List Char) => rest.isEmpty || (rest.head?.map isGap).getD false
  cs.take 3 == ['-', '-', '-'] || cs.take 3 == ['.', '.', '.'] ||
    match cs with
    | [] => false
    | c :: rest =>
      "#,[]\x7b\x7d&*!|>'\"%@\x60".toList.contains c || ((c == '?' || c == '-') && alone rest)

/-- Whether a text would be taken for something else than a text when written plain. -/
def looksOtherwise (cs : List Char) : Bool :=
  startsIndicator cs || hasMappingColon cs
    || hasPair (fun c => isGap c || isBreak c || c.toNat == 0) (· == '#') cs

/-- Whether some character cannot be written as it is. -/
def hasHidden (cs : List Char) : Bool := cs.any fun c => c != '\t' && !isShown c

/-- Whether the text may be written plain. -/
def allowsPlain (cs : List Char) : Bool :=
  let atEnd := fun (c : Option Char) => (c.map fun d => d == ' ' || isBreak d).getD false
  !(atEnd cs.head? || atEnd cs.getLast? || cs.any isBreak || cs.contains '\t' || hasHidden cs
    || looksOtherwise cs)

/-- Whether the text may stand between single quotes. -/
def allowsSingle (cs : List Char) : Bool :=
  !(hasPair isBreak (· == ' ') cs || hasPair (· == ' ') isBreak cs || cs.contains '\t' || hasHidden cs)

/-- Whether the text may be written as a literal block. -/
def allowsLiteral (cs : List Char) : Bool :=
  !(cs.isEmpty || cs.getLast? == some ' ' || hasPair (· == ' ') isBreak cs || hasHidden cs)

/-- Truth values of an older version of the format. -/
def isOldFlag (s : String) : Bool :=
  ["y", "Y", "yes", "Yes", "YES", "on", "On", "ON", "n", "N", "no", "No", "NO", "off", "Off",
    "OFF"].contains s

/-- Whether groups of one or two digits up to 59, each behind a colon, follow until the end; a fraction
    may come last. -/
def isSexagesimalTail : List Char → Bool
  | [] => true
  | '.' :: cs => cs.all fun c => isDigit c || c == '_'
  | ':' :: a :: b :: cs =>
    if isDigit a && isDigit b then a ≤ '5' && isSexagesimalTail cs
    else isDigit a && isSexagesimalTail (b :: cs)
  | [':', a] => isDigit a
  | _ => false

/-- Whether the text is a number in base sixty. -/
def isSexagesimal (cs : List Char) : Bool :=
  let (_, cs) := Scalar.sign cs
  match cs with
  | [] => false
  | c :: rest =>
    let tail := rest.dropWhile fun d => isDigit d || d == '_'
    isDigit c && tail.head? == some ':' && isSexagesimalTail tail

/-- Whether the text reads back as a text when written plain. -/
def readsAsText (s : String) : Bool :=
  (Scalar.ofPlain s).tag == strTag && !isSexagesimal s.toList && !isOldFlag s

def styleOf (s : String) : TextStyle :=
  let cs := s.toList
  if cs.contains '\n' then (if allowsLiteral cs then .literal else .double)
  else if readsAsText s then
    if allowsPlain cs then .plain else if allowsSingle cs then .single else .double
  else .double

/-! ### Writing texts -/

/-- A run of spaces. -/
def spaces (n : Nat) : List Char := List.replicate n ' '

/-- A character behind a backslash. -/
def escapeCode (c : Char) : List Char :=
  let n := c.toNat
  let digits := fun width => (hex width n).map Char.toUpper
  if n = 0 then ['0']
  else if n = 7 then ['a']
  else if n = 8 then ['b']
  else if n = 9 then ['t']
  else if n = 10 then ['n']
  else if n = 11 then ['v']
  else if n = 12 then ['f']
  else if n = 13 then ['r']
  else if n = 0x1b then ['e']
  else if n = 0x22 then ['"']
  else if n = 0x5c then ['\\']
  else if n = 0x85 then ['N']
  else if n = 0xa0 then ['_']
  else if n = 0x2028 then ['L']
  else if n = 0x2029 then ['P']
  else if n ≤ 0xff then 'x' :: digits 2
  else if n ≤ 0xffff then 'u' :: digits 4
  else 'U' :: digits 8

/-- A text between double quotes.  When it begins with a byte order mark, every character is
    escaped. -/
def doubleQuoted (cs : List Char) : List Char :=
  let marked := cs.head? == some byteOrderMark
  '"' :: (cs.flatMap fun c =>
    if marked || !isShown c || isBreak c || c == '"' || c == '\\' then '\\' :: escapeCode c else [c])
    ++ ['"']

/-- The characters between single quotes; a line goes on after the indentation. -/
def singleChars (indent : Nat) : Bool → List Char → List Char
  | _, [] => []
  | afterBreak, c :: cs =>
    if isBreak c then c :: singleChars indent true cs
    else
      (if afterBreak && c != ' ' then spaces indent else [])
        ++ (if c == '\'' then ['\'', '\''] else [c])
        ++ singleChars indent (afterBreak && c == ' ') cs

/-- A text between single quotes. -/
def singleQuoted (indent : Nat) (cs : List Char) : List Char :=
  '\'' :: singleChars indent false cs ++ ['\'']

/-- The mark that says how many line breaks at the end belong to the text. -/
def chompMark (cs : List Char) : List Char :=
  match cs.reverse with
  | [] => ['-']
  | [c] => if isBreak c then ['+'] else ['-']
  | c :: d :: _ => if !isBreak c then ['-'] else if isBreak d then ['+'] else []

/-- The lines of a literal block, each non-empty one behind the indentation. -/
def literalChars (indent : Nat) : Bool → List Char → List Char
  | _, [] => []
  | atStart, c :: cs =>
    if isBreak c then c :: literalChars indent true cs
    else (if atStart then spaces indent else []) ++ c :: literalChars indent false cs

/-- A literal block.  The break after its head is the first one of the text, where the text begins
    with one. -/
def literalBlock (step indent : Nat) (cs : List Char) : List Char :=
  let first := cs.head?
  let hint :=
    if (first.map fun c => c == ' ' || isBreak c).getD false then (decimal step).toList else []
  let head := if (first.map isBreak).getD false then [] else ['\n']
  '|' :: hint ++ chompMark cs ++ head ++ literalChars indent true cs

/-- A text whose further lines are indented. -/
def textChars (step indent : Nat) (s : String) : List Char :=
  match styleOf s with
  | .plain => s.toList
  | .single => singleQuoted indent s.toList
  | .double => doubleQuoted s.toList
  | .literal => literalBlock step indent s.toList

/-! ### Writing documents -/

/-- A value that stands behind its key or dash. -/
def inline? (step indent : Nat) : Document → Option (List Char)
  | .flag b => some (if b then "true" else "false").toList
  | .number n => some (decimalInt n).toList
  | .text s => some (textChars step indent s)
  | .list [] => some ['[', ']']
  | .missingList => some ['[', ']']
  | .record [] => some ['\x7b', '\x7d']
  | .list (_ :: _) => none
  | .record (_ :: _) => none

/-- A line with its end; what ends in a line break already gets none. -/
def endLine (cs : List Char) : List Char :=
  if (cs.getLast?.map isBreak).getD false then cs else cs ++ ['\n']

mutual

/-- The lines of a document that does not stand behind its key, without the indentation of the first
    line. -/
def blockChars (step indent : Nat) : Document → List Char
  | .list items => itemChars step indent items
  | .record members => memberChars step indent members
  | .flag _ => []
  | .number _ => []
  | .text _ => []
  | .missingList => []

/-- The items of a list, all but the first behind the indentation. -/
def itemChars (step indent : Nat) : List Document → List Char
  | [] => []
  | d :: rest =>
    let own :=
      match inline? step (indent + 2) d with
      | some cs => endLine cs
      | none => blockChars step (indent + 2) d
    ['-', ' '] ++ own ++ (if rest.isEmpty then [] else spaces indent ++ itemChars step indent rest)

/-- The members of a record, all but the first behind the indentation. -/
def memberChars (step indent : Nat) : List (String × Document) → List Char
  | [] => []
  | (key, d) :: rest =>
    let inner := step * ((indent + step) / step)
    let own :=
      match inline? step inner d with
      | some cs => ' ' :: endLine cs
      | none => '\n' :: spaces inner ++ blockChars step inner d
    key.toList ++ [':'] ++ own
      ++ (if rest.isEmpty then [] else spaces indent ++ memberChars step indent rest)

end

/-- A document as YAML with the given indentation. -/
def toYaml (step : Nat) (d : Document) : String :=
  String.ofList (match inline? step step d with
    | some cs => endLine cs
    | none => blockChars step 0 d)

end ServiceCompiler.Document
