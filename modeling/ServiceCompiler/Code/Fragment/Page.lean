import ServiceCompiler.Code.DocComment
import ServiceCompiler.Code.Fragment.Lexeme

namespace ServiceCompiler.Code.Fragment

/-!
# Pages

A page holds what is written of a fragment.  Blanks, line breaks and changes of the indentation wait
as gaps until the next lexeme, because a comment that stands before it in the source comes first and
may take some of them.

* `Page.write` writes a lexeme behind the comments and gaps that wait for it.
* `Page.addGap` lets a gap wait.
* `Page.lineBreak` lets the line breaks wait that the source has before a line.
-/

/-- What may stand between two lexemes. -/
inductive Gap where
  | ignored
  | blank
  | column
  | newline
  | formFeed
  | indent
  | unindent
  deriving DecidableEq, Repr

def Gap.isBreak (g : Gap) : Bool := g == .newline || g == .formFeed

/-- What was written last, as far as it bears on the next lexeme. -/
inductive Recent where
  | gap
  | integer
  | mark (text : String)
  | other
  deriving DecidableEq, Repr

/-- What is written of a fragment. -/
structure Page where
  items : Array (Option Char) := #[]
  /-- The place in the source that has been reached. -/
  place : Place := .start
  /-- The line of the page, from one. -/
  line : Nat := 1
  /-- The column of the page, from one. -/
  column : Nat := 1
  /-- The line of the source on which the last text ended. -/
  lastLine : Nat := 0
  indent : Nat := 0
  /-- How many literals are open. -/
  level : Nat := 0
  /-- Whether columns have ended on this line. -/
  isRagged : Bool := false
  /-- Whether a line end would end a statement. -/
  endsStatement : Bool := false
  recent : Recent := .gap
  /-- The opening bracket directly before what is written next. -/
  opening : Option String := none
  gaps : List Gap := []
  groups : List (List Remark) := []
  noExtraBlank : Bool := false
  /-- Whether no line break is added behind a comment. -/
  noExtraBreak : Bool := false
  /-- The line on which the statement under way started. -/
  startLine : Option Nat := none

namespace Page

/-! ### Characters -/

/-- Writes a blank or a break several times. -/
def repeated (p : Page) (c : Char) (n : Nat) : Page :=
  let isBreak := c = '\n' ∨ c = '\x0c'
  let shown := if !p.isRagged then c else if isBreak then '\x0c' else ' '
  let items := p.items ++ Array.replicate n (some shown)
  if isBreak then
    { p with
      items
      isRagged := false
      place := ⟨p.place.offset + n, p.place.line + n, 1⟩
      line := p.line + n
      column := 1 }
  else
    { p with
      items
      place := ⟨p.place.offset + n, p.place.line, p.place.column + n⟩
      column := p.column + n }

/-- Writes the indentation at the beginning of a line. -/
def indentation (p : Page) : Page :=
  if p.column = 1 then
    { p with
      items := p.items ++ Array.replicate p.indent (some '\t')
      column := p.column + p.indent }
  else p

/-- Writes text from the given place of the source; a literal is taken as it is.  Columns end with a
    line break inside of the text. -/
def text (p : Page) (place : Place) (cs : List Char) (isLiteral : Bool) : Page :=
  let p := p.indentation
  let marked := if isLiteral then none :: cs.map some ++ [none] else cs.map some
  let breaks := (cs.filter fun c => c == '\n' || c == '\x0c').length
  let size := Text.octetSize cs
  let tail := cs.reverse.takeWhile fun c => c != '\n' && c != '\x0c'
  let column := fun (before : Nat) => if breaks = 0 then before + size else Text.octetSize tail + 1
  { p with
    items := p.items ++ marked.toArray
    isRagged := p.isRagged || breaks > 0
    place := ⟨place.offset + size, place.line + breaks, column place.column⟩
    line := p.line + breaks
    column := column p.column
    lastLine := place.line + breaks }

/-! ### Gaps -/

/-- Writes the break that is held back. -/
def release (p : Page) (held : Option Char) : Page := (held.map fun c => p.repeated c 1).getD p

/-- Writes one gap.  A break is held back for the gap behind it: when the indentation ends there, it
    ends before the break. -/
def writeGap (state : Page × Option Char) (g : Gap) : Page × Option Char :=
  let (p, held) := state
  if g = .unindent ∧ held.isSome then ({ p with indent := p.indent - 1 }, some '\x0c')
  else
    let p := p.release held
    match g with
    | .ignored => (p, none)
    | .blank => (p.repeated ' ' 1, none)
    | .column => (p.repeated '\x0b' 1, none)
    | .newline => (p, some '\n')
    | .formFeed => (p, some '\x0c')
    | .indent => ({ p with indent := p.indent + 1 }, none)
    | .unindent => ({ p with indent := p.indent - 1 }, none)

/-- Writes the first of the gaps that wait. -/
def writeGaps (p : Page) (n : Nat) : Page :=
  let (q, held) := (p.gaps.take n).foldl writeGap (p, none)
  { q.release held with gaps := p.gaps.drop n }

/-- Notes the opening bracket that was written last. -/
def noteOpening (p : Page) : Page :=
  match p.recent with
  | .gap => p
  | .mark s => { p with opening := if s = "(" ∨ s = "[" then some s else none }
  | _ => { p with opening := none }

/-- Lets a gap wait. -/
def addGap (p : Page) (g : Gap) : Page :=
  let p := p.noteOpening
  if g = .ignored then p
  else
    { p with
      gaps := p.gaps ++ [g]
      endsStatement := p.endsStatement && !g.isBreak
      recent := .gap }

/-! ### Comments -/

def hasBreak (group : List Remark) : Bool :=
  let first := (group.head?.map (·.place.line)).getD 0
  group.any fun r => r.place.line != first || r.isLine || r.text.contains '\n'

/-- Whether a group of comments stands before a place of the source and may be written now. -/
def awaitsComment (p : Page) (next : Place) : Bool :=
  match p.groups with
  | (r :: rest) :: _ => r.place.offset < next.offset && !(p.endsStatement && hasBreak (r :: rest))
  | _ => false

/-- The gaps that a comment on the line of the last lexeme passes over, blanks being left out, with
    the number of those that are written before it. -/
def passedOnLine (gaps : List Gap) : List Gap × Nat :=
  let lead := gaps.takeWhile fun g => g == .blank || g == .column || g == .indent
  let shown := lead.map fun g => if g = .blank then Gap.ignored else g
  (shown ++ gaps.drop lead.length, if lead.length = gaps.length then 0 else lead.length)

/-- The gaps that a comment on a line of its own passes over, with the number of those that are
    written before it and whether it takes a break.  The last end of an indentation is passed over
    only by a comment that is `aligned` with the next lexeme. -/
def passedByLine (aligned : Bool) : Nat → List Gap → List Gap × Option Nat × Bool
  | _, [] => ([], none, false)
  | i, g :: rest =>
    let onward := fun (g : Gap) =>
      let (gaps, stop, took) := passedByLine aligned (i + 1) rest
      (g :: gaps, stop, took)
    match g with
    | .blank | .column => onward .ignored
    | .indent => onward g
    | .unindent =>
      if rest.head? = some .unindent || aligned then onward g else (g :: rest, some i, false)
    | .newline | .formFeed => (.ignored :: rest, some i, true)
    | .ignored => (g :: rest, some i, false)

/-- Writes what separates a comment from what comes before it: `previous` is the comment written
    just before, and `closes` tells whether a closing brace follows. -/
def beforeComment (p : Page) (place next : Place) (previous : Option (List Char)) (closes : Bool) :
    Page :=
  let afterLine := (previous.map isLineComment).getD false
  if place.line = p.lastLine ∧ !afterLine then
    let (gaps, n) := if previous.isNone then passedOnLine p.gaps else (p.gaps, 0)
    let hasColumn := previous.isNone &&
      (p.gaps.takeWhile fun g => g == .blank || g == .column || g == .indent).contains .column
    let p := { p with gaps }.writeGaps n
    if hasColumn then p else p.repeated (if place.line = next.line then ' ' else '\t') 1
  else
    let aligned := !closes && place.column == next.column
    let (gaps, stop, took) := passedByLine aligned 0 p.gaps
    let p := { p with gaps }.writeGaps (stop.getD 0)
    let breaks := if p.lastLine = 0 then 0 else place.line - p.lastLine
    let breaks := if p.indent = 0 ∧ took ∧ previous.isNone then breaks + 1 else breaks
    let breaks := if breaks = 0 ∧ afterLine then 1 else breaks
    if breaks = 0 then p else p.repeated '\x0c' (min breaks 2)

/-- Writes the further lines of a block comment. -/
def commentLines (p : Page) (lines : List (List Char)) : Page :=
  lines.foldl (fun p line =>
    let p := p.repeated '\x0c' 1
    if line.isEmpty then p else p.text p.place line true) p

/-- Writes a comment.  A block from the first column that gets indented takes its lines along, and a
    line directive stays in the first column. -/
def comment (p : Page) (place : Place) (text : List Char) : Page :=
  if isLineComment text then
    let isDirective := place.column = 1 && Text.hasLead "//line ".toList text
    let shown := { p with indent := if isDirective then 0 else p.indent }
    { shown.text place (Text.trimTail text) true with indent := p.indent }
  else
    let lines := Text.splitOn '\n' text
    let lines :=
      if place.column = 1 ∧ p.indent > 0 then
        lines.take 1 ++ (lines.drop 1).map ([' ', ' ', ' '] ++ ·)
      else lines
    match (alignBlock lines).map Text.trimTail with
    | [] => p
    | first :: rest => (p.text place first true).commentLines rest

/-- Writes comments one after the other; `previous` is the one written before them. -/
def comments (p : Page) (next : Place) (closes : Bool) :
    Option (List Char) → List (Place × List Char) → Page
  | _, [] => p
  | previous, (place, text) :: rest =>
    let p := (p.beforeComment place next previous closes).comment place text
    comments p next closes (some text) rest

/-- Writes what follows comments: of the breaks that wait one is kept if one is needed.  Tells
    whether a break was written and whether a form feed was left out. -/
def afterComments (p : Page) (needsBreak : Bool) : Page × Bool × Bool :=
  let (gaps, stillNeeded, dropped) := p.gaps.foldl (fun (shown, needed, dropped) g =>
      match g with
      | .blank | .column => (shown ++ [Gap.ignored], needed, dropped)
      | .newline | .formFeed =>
        if needed then (shown ++ [g], false, dropped)
        else (shown ++ [.ignored], false, dropped || g == .formFeed)
      | g => (shown ++ [g], needed, dropped))
    (([], needsBreak, false) : List Gap × Bool × Bool)
  let p := { p with gaps }.writeGaps gaps.length
  if stillNeeded then (p.repeated '\n' 1, true, dropped) else (p, needsBreak, dropped)

/-- Writes the groups of comments before a place of the source.  A group that starts a line and ends
    directly before that place is a document.  Gives the last comment with its line, and whether the
    last group came to nothing. -/
def writeGroups : Nat → Page → Place → Bool → Option (List Char × Nat) →
    Page × Option (List Char × Nat) × Bool
  | 0, p, _, _, last => (p, last, false)
  | fuel + 1, p, next, closes, last =>
    match p.groups with
    | [] => (p, last, false)
    | group :: others =>
      if !p.awaitsComment next then (p, last, false)
      else
        let plain := group.map fun r => (r.place, r.text)
        let first := (group.head?.map (·.place)).getD next
        let final := group.getLast?.getD ⟨[], next⟩
        let stop := final.place.afterAll final.text
        let isDocument := first.column == 1 && stop.offset + 1 == next.offset
        let shown :=
          if isDocument then
            (DocComment.formatted? (group.map (·.text))).elim plain fun ts => ts.map (first, ·)
          else plain
        let previous := last.map (·.1)
        if shown.isEmpty then
          let p := p.beforeComment first next previous closes
          ({ p with place := next, lastLine := next.line, groups := others }, last, true)
        else
          let p := p.comments next closes previous shown
          let p := if isDocument then { p with place := stop, lastLine := stop.line } else p
          let last := some (final.text, final.place.line)
          writeGroups fuel { p with groups := others } next closes last

/-- Writes the comments before a place of the source, or else only the gaps.  Behind a block comment
    a blank follows, or a break where one waits; behind a line comment and before a closing brace a
    break does.  Tells whether a break was written and whether a form feed was left out. -/
def flush (p : Page) (next : Place) (token : String) : Page × Bool × Bool :=
  if !p.awaitsComment next then (p.writeGaps p.gaps.length, false, false)
  else
    match p.writeGroups (p.groups.length + 1) next (token == "\x7d") none with
    | (p, _, true) => p.afterComments false
    | (p, none, false) => p.afterComments false
    | (p, some (text, line), false) =>
      let isLine := isLineComment text
      let addsGap := !p.noExtraBlank && !isLine && line == next.line && token != ","
        && (token != ")" || p.opening == some "(") && (token != "]" || p.opening == some "[")
      let breaks := addsGap && p.gaps.any Gap.isBreak && !p.noExtraBreak && p.level == 0
      let p := if addsGap && !breaks then p.repeated ' ' 1 else p
      p.afterComments (breaks || isLine || (token == "\x7d" && !p.noExtraBreak))

/-! ### Lexemes -/

/-- Whether two lexemes would become another one without a blank between them. -/
def combines (before : Recent) (c : Char) : Bool :=
  match before with
  | .integer => c == '.'
  | .mark "+" => c == '+'
  | .mark "-" => c == '-'
  | .mark "/" => c == '*'
  | .mark "<" => c == '-' || c == '<'
  | .mark "&" => c == '&' || c == '^'
  | _ => false

/-- Writes a lexeme behind the comments and gaps before it.  Behind comments the breaks of the
    source follow where they do not end a statement. -/
def write (p : Page) (recent : Recent) (cs : List Char) (isLiteral endsStatement : Bool) : Page :=
  let token := match recent with
    | .mark s => s
    | _ => ""
  let p := p.noteOpening
  let p :=
    match recent, cs with
    | .mark _, c :: _ => if combines p.recent c then { p with gaps := [.blank] } else p
    | _, _ => p
  let next := p.place
  let (p, wrote, dropped) := { p with recent }.flush next token
  let breaks := if p.endsStatement then 0 else min (next.line - p.place.line) 2
  let breaks := if wrote ∧ breaks = 2 then 1 else breaks
  let p := if breaks = 0 then p else p.repeated (if dropped then '\x0c' else '\n') breaks
  let p := { p with startLine := p.startLine.or (some p.line) }
  { p.text next cs isLiteral with endsStatement := endsStatement && breaks == 0 }

/-- Lets the breaks wait that the source has before a line, at least as many as asked for and at
    most two, behind another gap.  The first may end all columns.  Gives the number of breaks. -/
def lineBreak (p : Page) (line least : Nat) (g : Gap) (isSection : Bool) : Page × Nat :=
  let n := max (min (line - p.place.line) 2) least
  if n = 0 then (p, 0)
  else
    let p := p.addGap g
    if isSection then
      ((List.replicate (n - 1) Gap.newline).foldl addGap (p.addGap .formFeed), n + 1)
    else ((List.replicate n Gap.newline).foldl addGap p, n)

end Page

end ServiceCompiler.Code.Fragment
