import ServiceCompiler.Text.Basic

namespace ServiceCompiler.Code

/-!
# Columns

Written code is a sequence of characters in which tabs end the cells of a line.  Cells that stand
below each other in neighbouring lines are padded to one width.  A form feed ends a line and all
columns.  Marks stand around text that is taken as it is.

* `Columns.lines` divides what is written into lines of cells.
* `Columns.widths` gives the widths of the cells.
* `Columns.chars` is the text with padding and without blanks at the ends of lines.
-/

/-- What is written: characters, and marks where text that is taken as it is begins and ends. -/
abbrev Marked := List (Option Char)

namespace Columns

/-- Text that a tab ends.  An indentation is a cell that is kept although it is empty. -/
structure Cell where
  items : Marked
  isIndentation : Bool
  deriving DecidableEq, Repr

/-- The number of characters of a cell. -/
def Cell.size (c : Cell) : Nat := (c.items.filter (·.isSome)).length

/-- A line: its cells, the text behind the last one, and whether all columns end with it. -/
structure Line where
  cells : List Cell := []
  rest : Marked := []
  endsColumns : Bool := false
  deriving DecidableEq, Repr

/-- Lines under way: the finished ones and the cells of the last one, each last one first, the text
    of the cell under way, last item first, and whether it is inside marks. -/
structure Dividing where
  lines : List Line := []
  cells : List Cell := []
  items : Marked := []
  isInside : Bool := false

/-- Reads a further item. -/
def Dividing.add (d : Dividing) (item : Option Char) : Dividing :=
  let kept := { d with items := item :: d.items }
  match item with
  | none => { kept with isInside := !d.isInside }
  | some c =>
    if d.isInside then kept
    else if c = '\t' ∨ c = '\x0b' then
      { d with cells := ⟨d.items.reverse, c = '\t'⟩ :: d.cells, items := [] }
    else if c = '\n' ∨ c = '\x0c' then
      { lines := ⟨d.cells.reverse, d.items.reverse, c = '\x0c'⟩ :: d.lines }
    else kept

/-- The lines of what is written; the last one has no end. -/
def lines (items : Marked) : List Line :=
  let d := items.foldl Dividing.add {}
  (⟨d.cells.reverse, d.items.reverse, false⟩ :: d.lines).reverse

/-- The widths of the cells of neighbouring lines.  A column goes through the lines that have a cell
    there; it is as wide as its widest cell and one more, and nothing when all its cells are empty
    and none of them is an indentation. -/
def widths : Nat → List (List Cell) → List (List Nat)
  | 0, rows => rows.map fun _ => []
  | fuel + 1, rows =>
    (rows.splitBy fun a b => a.isEmpty == b.isEmpty).flatMap fun run =>
      if run.all (·.isEmpty) then run.map fun _ => []
      else
        let column := run.filterMap List.head?
        let isDropped := column.all fun c => c.size == 0 && !c.isIndentation
        let width := if isDropped then 0 else (column.map fun c => c.size + 1).foldl max 0
        (widths fuel (run.map List.tail)).map (width :: ·)

/-- A cell with its padding.  Empty cells at the beginning of a line are padded with tabs of eight
    characters, all others with spaces. -/
def padded (leads : Bool) (cell : Cell) (width : Nat) : Marked :=
  if cell.items.isEmpty && leads then List.replicate ((width + 7) / 8) (some '\t')
  else cell.items ++ List.replicate (width - cell.size) (some ' ')

/-- The cells of a line with their padding; `leads` tells whether all before were empty. -/
def paddedCells : Bool → List Cell → List Nat → Marked
  | leads, cell :: cells, width :: widths =>
    padded leads cell width ++ paddedCells (leads && cell.items.isEmpty) cells widths
  | _, _, _ => []

/-- The lines of one section with their padding. -/
def paddedLines (ls : List Line) : List Marked :=
  let rows := ls.map (·.cells)
  let deepest := (rows.map List.length).foldl max 0
  List.zipWith (fun l ws => paddedCells true l.cells ws ++ l.rest) ls (widths deepest rows)

/-- The lines cut behind those that end all columns. -/
def sections : List Line → List (List Line)
  | [] => []
  | l :: rest =>
    match l.endsColumns, sections rest with
    | false, s :: others => (l :: s) :: others
    | _, others => [l] :: others

/-- The characters without the marks, and without blanks at the ends of lines; `gap` holds the
    blanks that are not yet written, last one first. -/
def trimmed : Bool → List Char → Marked → List Char
  | _, _, [] => []
  | true, _, none :: rest => trimmed false [] rest
  | false, gap, none :: rest => gap.reverse ++ trimmed true [] rest
  | true, gap, some c :: rest => c :: trimmed true gap rest
  | false, gap, some c :: rest =>
    if c = ' ' ∨ c = '\t' ∨ c = '\x0b' then
      trimmed false ((if c = ' ' then c else '\t') :: gap) rest
    else if c = '\n' ∨ c = '\x0c' then '\n' :: trimmed false [] rest
    else gap.reverse ++ c :: trimmed false [] rest

/-- The text of what is written. -/
def chars (items : Marked) : List Char :=
  trimmed false [] ([some '\n'].intercalate ((sections (lines items)).flatMap paddedLines))

end Columns

end ServiceCompiler.Code
