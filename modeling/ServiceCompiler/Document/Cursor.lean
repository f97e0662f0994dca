import ServiceCompiler.Document.Chars

namespace ServiceCompiler.Document

/-!
# Cursors

A cursor is the text that is still to be read together with the place where it stands.  A line break
is one of several characters, or a carriage return with a line feed; it is read as a line feed unless
it is a separator.
-/

/-- A place in a text; lines count from one, columns and offsets from zero. -/
structure Mark where
  line : Nat := 1
  column : Nat := 0
  offset : Nat := 0
  deriving DecidableEq, Repr

/-- The place after some characters of the same line. -/
def Mark.ahead (m : Mark) (count : Nat) : Mark :=
  { m with column := m.column + count, offset := m.offset + count }

/-- The place after a line break of some characters. -/
def Mark.nextLine (m : Mark) (count : Nat) : Mark :=
  { line := m.line + 1, column := 0, offset := m.offset + count }

/-- The text to be read and its place. -/
structure Cursor where
  rest : List Char
  mark : Mark := {}
  deriving DecidableEq, Repr

/-- What a line break is read as. -/
def breakText (c : Char) : List Char := if isSeparator c then [c] else ['\n']

namespace Cursor

/-- The cursor after some characters of the same line. -/
def skip (c : Cursor) (count : Nat) : Cursor := ⟨c.rest.drop count, c.mark.ahead count⟩

/-- The characters of a line that satisfy a predicate, and the cursor after them. -/
def run (c : Cursor) (p : Char → Bool) : List Char × Cursor :=
  let word := c.rest.takeWhile p
  (word, c.skip word.length)

/-- The text of a line break, and the cursor after it; there may be none. -/
def readBreak (c : Cursor) : List Char × Cursor :=
  match c.rest with
  | '\r' :: '\n' :: cs => (['\n'], ⟨cs, c.mark.nextLine 2⟩)
  | b :: cs => if isBreak b then (breakText b, ⟨cs, c.mark.nextLine 1⟩) else ([], c)
  | [] => ([], c)

/-- Whether the mark between two documents stands here. -/
def atDocumentMark (c : Cursor) : Bool :=
  c.mark.column == 0 && (c.rest.take 3 == ['-', '-', '-'] || c.rest.take 3 == ['.', '.', '.'])
    && startsGap (c.rest.drop 3)

/-- The first character. -/
def head? (c : Cursor) : Option Char := c.rest.head?

/-- Whether a character stands here. -/
def at_ (c : Cursor) (d : Char) : Bool := c.head? == some d

end Cursor

/-! ### Gaps -/

/-- What lies between two words: spaces, or a first line break and further ones. -/
inductive Gap where
  | spaces (cs : List Char)
  | breaks (first further : List Char)
  deriving DecidableEq, Repr

namespace Gap

/-- Whether a line ends in the gap. -/
def isBroken : Gap → Bool
  | .spaces _ => false
  | .breaks _ _ => true

/-- What a gap is read as: one line break becomes a space, of several all but the first are kept. -/
def joined : Gap → List Char
  | .spaces cs => cs
  | .breaks first further =>
    if first.head? == some '\n' then (if further.isEmpty then [' '] else further)
    else first ++ further

/-- The gap with a further space or tab; these count only before the first line break. -/
def addSpace (c : Char) : Gap → Gap
  | .spaces cs => .spaces (cs ++ [c])
  | g => g

/-- The gap with a further line break. -/
def addBreak (text : List Char) : Gap → Gap
  | .spaces _ => .breaks text []
  | .breaks first further => .breaks first (further ++ text)

/-- Reads spaces, tabs and line breaks.  A tab in front of the given column is refused. -/
def read? (column : Int) : Gap → List Char → Mark → Option (Gap × Cursor)
  | g, '\r' :: '\n' :: cs, m => read? column (g.addBreak ['\n']) cs (m.nextLine 2)
  | g, c :: cs, m =>
    if isGap c then
      if c == '\t' && g.isBroken && (m.column : Int) < column then none
      else read? column (g.addSpace c) cs (m.ahead 1)
    else if isBreak c then read? column (g.addBreak (breakText c)) cs (m.nextLine 1)
    else some (g, ⟨c :: cs, m⟩)
  | g, [], m => some (g, ⟨[], m⟩)

end Gap

end ServiceCompiler.Document
