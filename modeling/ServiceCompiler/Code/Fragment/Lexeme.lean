import ServiceCompiler.Code.CommentRun

namespace ServiceCompiler.Code.Fragment

open Text

/-!
# Lexemes

A fragment is code that is given as text and has to be laid out.  Its lexemes are names, keywords,
literals, marks and comments, each with its place.  A line end ends a statement behind a name, a
literal, a closing bracket and a few other lexemes, and is a lexeme of its own there.

* `lexemes?` reads a fragment, `none` when a lexeme is not well formed.
* `Remark.groups` gathers the comments between two lexemes.
-/

/-- A place in a fragment: octets before it, its line and its column, both from one. -/
structure Place where
  offset : Nat
  line : Nat
  column : Nat
  deriving DecidableEq, Repr

/-- The beginning of a fragment. -/
def Place.start : Place := ⟨0, 1, 1⟩

def Place.after (p : Place) (c : Char) : Place :=
  if c = '\n' then ⟨p.offset + 1, p.line + 1, 1⟩
  else ⟨p.offset + c.utf8Size, p.line, p.column + c.utf8Size⟩

/-- The place behind a text. -/
def Place.afterAll (p : Place) (cs : List Char) : Place := cs.foldl Place.after p

/-- The kinds of lexemes.  `ending` is a semicolon or the end of a line that stands for one. -/
inductive Kind where
  | name
  | keyword
  | integer
  | float
  | imaginary
  | rune
  | text
  | mark
  | ending
  | comment
  deriving DecidableEq, Repr

/-- A lexeme with its place. -/
structure Lexeme where
  kind : Kind
  text : List Char
  place : Place
  deriving DecidableEq, Repr

/-- Whether the lexeme is the keyword, mark or ending with the given text. -/
def Lexeme.is (l : Lexeme) (text : String) : Bool :=
  (l.kind == .mark || l.kind == .keyword || l.kind == .ending) && l.text == text.toList

/-! ### Names -/

/-- Words of the generated language that are no names. -/
def keywords : List String :=
  ["break", "case", "chan", "const", "continue", "default", "defer", "else", "fallthrough", "for",
   "func", "go", "goto", "if", "import", "interface", "map", "package", "range", "return", "select",
   "struct", "switch", "type", "var"]

def isNameStart (c : Char) : Bool := c == '_' || isLetter c

/-- Whether the character may stand in a name. -/
def isNameChar (c : Char) : Bool := isNameStart c || isDecimalDigit c

/-- Whether a text is a name of the generated language. -/
def isName (cs : List Char) : Bool :=
  match cs with
  | [] => false
  | c :: rest =>
    isNameStart c && rest.all isNameChar && !keywords.contains (String.ofList cs)

/-! ### Numbers -/

/-- The characters of a number are digits, underscores between them and other ones. -/
inductive NumberPart where
  | digit
  | underscore
  | other
  deriving DecidableEq

/-- Whether every underscore separates two digits; `previous` is the part before. -/
def separatesDigits (isDigit : Char → Bool) : NumberPart → List Char → Bool
  | previous, [] => previous != .underscore
  | previous, c :: cs =>
    if c = '_' then previous == .digit && separatesDigits isDigit .underscore cs
    else if isDigit c then separatesDigits isDigit .digit cs
    else previous != .underscore && separatesDigits isDigit .other cs

/-- The base of a number that starts so, the letter that tells it, and how many characters do.  A
    zero alone stands for base eight, which binds whole numbers only. -/
def baseOf : List Char → Nat × Char × Nat
  | '0' :: c :: _ =>
    if c = 'x' ∨ c = 'X' then (16, 'x', 2)
    else if c = 'o' ∨ c = 'O' then (8, 'o', 2)
    else if c = 'b' ∨ c = 'B' then (2, 'b', 2)
    else (8, '0', 1)
  | ['0'] => (8, '0', 1)
  | _ => (10, ' ', 0)

/-- The exponent at the beginning of a text, which may be empty; `none` when it is not well formed.
    -/
def exponent? (base : Char) (cs : List Char) : Option (List Char) :=
  match cs with
  | [] => some []
  | c :: rest =>
    let isDecimal := c = 'e' ∨ c = 'E'
    let isBinary := c = 'p' ∨ c = 'P'
    if !isDecimal && !isBinary then some []
    else if (isDecimal && base != ' ' && base != '0') || (isBinary && base != 'x') then none
    else
      let sign := rest.takeWhile (fun c => c == '+' || c == '-') |>.take 1
      let digits := (rest.drop sign.length).takeWhile fun c => isDigit c || c == '_'
      if digits.any isDigit then some (c :: sign ++ digits) else none

/-- The number at the beginning of a text. -/
def number? (cs : List Char) : Option (Kind × List Char) := do
  let (base, letter, size) := baseOf cs
  let isDigit := fun c =>
    if base = 16 then (digitValue? c).any (· < 16) else isDigit c
  let isPart := fun c => isDigit c || c == '_'
  let whole := (cs.drop size).takeWhile isPart
  let rest := cs.drop (size + whole.length)
  let fraction := if rest.head? = some '.' then '.' :: rest.tail.takeWhile isPart else []
  if !fraction.isEmpty && (letter = 'o' || letter = 'b') then none
  if !(letter == '0' || (whole ++ fraction).any isDigit) then none
  let exponent ← exponent? letter (rest.drop fraction.length)
  if letter = 'x' && !fraction.isEmpty && exponent.isEmpty then none
  let body := cs.take size ++ whole ++ fraction ++ exponent
  let isImaginary := (cs.drop body.length).head? = some 'i'
  let kind : Kind :=
    if isImaginary then .imaginary
    else if fraction.isEmpty && exponent.isEmpty then .integer
    else .float
  let inBase := whole.all fun c => c == '_' || (digitValue? c).any (· < base)
  if kind = .integer && !inBase then none
  let start := if size = 2 then NumberPart.digit else .other
  let digits := body.drop (if size = 2 then 2 else 0)
  if body.contains '_' && !separatesDigits isDigit start digits then none
  return (kind, if isImaginary then body ++ ['i'] else body)

/-! ### Quoted literals -/

/-- The size of what follows a backslash in a literal between the given quotes. -/
def escapeSize? (quote : Char) (cs : List Char) : Option Nat :=
  let coded := fun (lead base digits : Nat) (limit : Nat) => do
    let body := (cs.drop lead).take digits
    let n ← if body.length = digits then natOf? base body else none
    if n ≤ limit && !(0xd800 ≤ n && n < 0xe000) then some (lead + digits) else none
  match cs with
  | [] => none
  | c :: _ =>
    if c = quote ∨ ['a', 'b', 'f', 'n', 'r', 't', 'v', '\\'].contains c then some 1
    else if '0' ≤ c ∧ c ≤ '7' then coded 0 8 3 0xff
    else if c = 'x' then coded 1 16 2 0xff
    else if c = 'u' then coded 1 16 4 0x10ffff
    else if c = 'U' then coded 1 16 8 0x10ffff
    else none

/-- The size of a literal up to and including the closing quote, and the number of characters it
    stands for; `skip` characters belong to an escape. -/
def quotedSize? (quote : Char) : Nat → Nat → Nat → List Char → Option (Nat × Nat)
  | _, _, _, [] => none
  | skip + 1, size, count, _ :: cs => quotedSize? quote skip (size + 1) count cs
  | 0, size, count, c :: cs =>
    if c = quote then some (size + 1, count)
    else if c = '\n' then none
    else if c = '\\' then
      (escapeSize? quote cs).bind fun skip => quotedSize? quote skip (size + 1) (count + 1) cs
    else quotedSize? quote 0 (size + 1) (count + 1) cs

/-! ### Reading -/

/-- The marks, longer ones first. -/
def marks : List String :=
  ["&^=", "<<=", ">>=", "...",
   "&&", "||", "<-", "++", "--", "==", "!=", "<=", ">=", ":=", "+=", "-=", "*=", "/=", "%=", "&=",
   "|=", "^=", "<<", ">>", "&^",
   "+", "-", "*", "/", "%", "&", "|", "^", "<", ">", "=", "!", "(", "[", "\x7b", ",", ".", ")", "]",
   "\x7d", ":", "~"]

/-- The first lexeme of a text that starts with none of a blank and a line end: its kind and the
    characters it takes. -/
def lexeme? (cs : List Char) : Option (Kind × List Char) :=
  match cs with
  | [] => none
  | c :: rest =>
    if isNameStart c then
      let word := cs.takeWhile isNameChar
      some (if keywords.contains (String.ofList word) then .keyword else .name, word)
    else if isDigit c || (c = '.' && (rest.head?.map isDigit).getD false) then number? cs
    else if c = '"' then
      (quotedSize? '"' 0 1 0 rest).map fun (size, _) => (.text, cs.take size)
    else if c = '\'' then
      ((quotedSize? '\'' 0 1 0 rest).filter fun (_, count) => count = 1).map fun (size, _) =>
        (.rune, cs.take size)
    else if c = '\x60' then
      (cutAt? '\x60' rest).map fun (body, _) => (.text, c :: body ++ ['\x60'])
    else if c = ';' then some (.ending, [';'])
    else if hasLead ['/', '/'] cs then some (.comment, cs.takeWhile (· != '\n'))
    else if hasLead ['/', '*'] cs then
      (cut? ['*', '/'] (cs.drop 2)).map fun (body, _) =>
        (.comment, ['/', '*'] ++ body ++ ['*', '/'])
    else
      (marks.find? fun m => hasLead m.toList cs).map fun m => (.mark, m.toList)

/-- Whether a line end behind the lexeme ends a statement. -/
def Kind.endsStatement (kind : Kind) (text : List Char) : Bool :=
  match kind with
  | .name | .integer | .float | .imaginary | .rune | .text => true
  | .keyword => ["break", "continue", "fallthrough", "return"].contains (String.ofList text)
  | .mark => [")", "]", "\x7d", "++", "--"].contains (String.ofList text)
  | .ending | .comment => false

/-- The lexemes of a fragment.  `ends` tells whether a line end would end a statement.  A raw
    literal and a comment lose their carriage returns, and a comment that looks like a line
    directive has to be one. -/
def lexemesFrom : Nat → Bool → Place → List Char → Option (List Lexeme)
  | 0, _, _, _ => none
  | fuel + 1, ends, place, cs =>
    match cs with
    | [] => some (if ends then [⟨.ending, ['\n'], place⟩] else [])
    | c :: rest =>
      if c = '\n' then
        (lexemesFrom fuel false (place.after c) rest).map fun ls =>
          if ends then ⟨.ending, ['\n'], place⟩ :: ls else ls
      else if c = ' ' ∨ c = '\t' ∨ c = '\r' then lexemesFrom fuel ends (place.after c) rest
      else do
        let (kind, raw) ← lexeme? cs
        let next := place.afterAll raw
        let others := cs.drop raw.length
        if kind = .comment then
          if !(CommentRun.Placed.mk raw place.line (place.column == 1)).isAccepted then none
          let broken := ends && !isLineComment raw && raw.contains '\n'
          let ls ← lexemesFrom fuel (ends && !broken) next others
          let ending : Lexeme :=
            ⟨.ending, ['\n'], place.afterAll (raw.takeWhile (· != '\n'))⟩
          return ⟨.comment, dropReturns raw, place⟩ :: (if broken then ending :: ls else ls)
        else
          let text := if c = '\x60' then raw.filter (· != '\r') else raw
          let ls ← lexemesFrom fuel (kind.endsStatement raw) next others
          return ⟨kind, text, place⟩ :: ls

/-- The lexemes of a fragment, `none` when one of them is not well formed. -/
def lexemes? (cs : List Char) : Option (List Lexeme) :=
  if areCommentChars cs then lexemesFrom (cs.length + 1) false .start cs else none

/-! ### Comments -/

/-- A comment with its place. -/
structure Remark where
  text : List Char
  place : Place
  deriving DecidableEq, Repr

/-- The line on which the comment ends. -/
def Remark.lastLine (r : Remark) : Nat := r.place.line + r.text.count '\n'

/-- Whether the comment goes to the end of its line. -/
def Remark.isLine (r : Remark) : Bool := isLineComment r.text

/-- The comments of a fragment in groups.  `previous` is the line of the lexeme before, `under` the
    group under way, last comment first, with the greatest distance in lines to the next one.
    Comments on the line of the lexeme before them make a group of their own; any others belong
    together when they stand on the same or the next line. -/
def Remark.groupsFrom : Nat → Option (List Remark × Nat) → List Lexeme → List (List Remark)
  | _, under, [] => (under.map fun (g, _) => g.reverse).toList
  | previous, under, l :: rest =>
    if l.kind = .comment then
      let remark : Remark := ⟨l.text, l.place⟩
      match under with
      | none =>
        let distance := if l.place.line = previous then 0 else 1
        groupsFrom previous (some ([remark], distance)) rest
      | some (group, distance) =>
        let last := (group.head?.map Remark.lastLine).getD 0
        if l.place.line ≤ last + distance then
          groupsFrom previous (some (remark :: group, distance)) rest
        else group.reverse :: groupsFrom previous (some ([remark], 1)) rest
    else (under.map fun (g, _) => g.reverse).toList ++ groupsFrom l.place.line none rest

/-- The comments of a fragment in groups. -/
def Remark.groups (ls : List Lexeme) : List (List Remark) := groupsFrom 0 none ls

end ServiceCompiler.Code.Fragment
