import ServiceCompiler.Text.Blank

namespace ServiceCompiler.Code

open Text

/-!
# Comments

A comment of a generated file as the formatter leaves it.

* `commentText` puts comment marks around a text.
* `formatComment` is a comment line by line, with the margin of a block taken off.
-/

/-- The text with comment marks: a text that has them already is kept, a text of several lines
    becomes a block comment, any other a line comment. -/
def commentText (cs : List Char) : List Char :=
  if hasLead ['/', '/'] cs || hasLead ['/', '*'] cs then cs
  else if cs.contains '\n' then
    ['/', '*', '\n'] ++ cs ++ (if cs.getLast? = some '\n' then [] else ['\n']) ++ ['*', '/']
  else ['/', '/', ' '] ++ cs

/-- Whether the characters may stand in a comment. -/
def areCommentChars (cs : List Char) : Bool := cs.all fun c => c.toNat != 0 && c.toNat != 0xfeff

/-! ### Block comments -/

/-- Whether a line holds nothing but blanks and control characters. -/
def isBlankLine (line : List Char) : Bool := line.all (·.toNat ≤ 0x20)

/-- The common beginning of two lines that consists of blanks and stars. -/
def commonMargin : List Char → List Char → List Char
  | a :: as, b :: bs =>
    if a = b ∧ (a.toNat ≤ 0x20 ∨ a = '*') then a :: commonMargin as bs else []
  | _, _ => []

/-- The common margin of the lines that are not blank. -/
def marginOf : List (List Char) → Option (List Char)
  | [] => none
  | line :: rest =>
    if isBlankLine line then marginOf rest
    else
      some ((rest.filter (!isBlankLine ·)).foldl (fun margin l => commonMargin margin l)
        (commonMargin line line))

/-- Up to three blanks, or else one tab, taken off the end of a margin. -/
def shortenMargin (margin : List Char) : List Char :=
  let reversed := margin.reverse
  let blanks := (reversed.takeWhile (· == ' ')).length
  if blanks > 0 then (reversed.drop (min blanks 3)).reverse
  else
    match reversed with
    | '\t' :: rest => rest.reverse
    | _ => margin

/-- The margin without the part that the first line has after its opening. -/
def alignMargin (first margin : List Char) : List Char :=
  let lead := (first.drop 2).takeWhile (·.toNat ≤ 0x20)
  let suffix := if lead.head? = some '\t' then lead else [' ', ' '] ++ lead
  (stripTail? suffix margin).getD margin

/-- The lines of a block comment with their common margin removed and the end aligned. -/
def alignBlock (lines : List (List Char)) : List (List Char) :=
  match lines with
  | [] => []
  | [line] => [line]
  | first :: rest =>
    let inner := rest.dropLast.map fun l => if isBlankLine l then [] else l
    let last := rest.getLast?.getD []
    let margin := (marginOf inner).getD (commonMargin last last)
    let (margin, starred) :=
      match cutAt? '*' margin with
      | some (before, _) => ((stripTail? [' '] before).getD before, true)
      | none =>
        if isBlankLine (first.drop 2) then (shortenMargin margin, false)
        else (alignMargin first margin, false)
    let before := ((cut? ['*', '/'] last).map (·.1)).getD last
    let (margin, last) :=
      if isBlankLine before then (margin, margin ++ (if starred then [' ', '*', '/'] else ['*', '/']))
      else (commonMargin margin last, last)
    first :: (inner ++ [last]).map fun l => if l.isEmpty then l else l.drop margin.length

/-- The text of a block comment without carriage returns; one between a star and a slash stays,
    since the comment would end there.  `kept` is what was kept so far, last character first. -/
def dropReturnsFrom (kept : List Char) : List Char → List Char
  | [] => kept.reverse
  | c :: cs =>
    let guards := kept.length > 2 && kept.head? == some '*' && cs.head? == some '/'
    if c = '\r' && !guards then dropReturnsFrom kept cs else dropReturnsFrom (c :: kept) cs

/-- Whether the comment goes to the end of its line. -/
def isLineComment (cs : List Char) : Bool := hasLead ['/', '/'] cs

/-- The text of a comment without carriage returns. -/
def dropReturns (cs : List Char) : List Char :=
  if isLineComment cs then cs.filter (· != '\r') else dropReturnsFrom [] cs

/-- A comment as the formatter writes it, line by line. -/
def formatComment (cs : List Char) : List (List Char) :=
  if isLineComment cs then [trimTail cs]
  else (alignBlock (splitOn '\n' cs)).map trimTail

end ServiceCompiler.Code
