import ServiceCompiler.Code.Columns
import ServiceCompiler.Code.Comment
import ServiceCompiler.Code.Constraint

namespace ServiceCompiler.Code

/-!
# Runs of comments

Text that stands in front of code and has to consist of comments only, such as the header of a file.

* `CommentRun.comments?` reads the comments with the lines they start on.
* `CommentRun.print` writes them with the line breaks between them, which are counted in lines of
  the text; a form feed inside a comment counts as a line break once it is written.
-/

namespace CommentRun

/-! ### Reading -/

/-- A comment with the line it starts on, and whether that line starts with it. -/
structure Placed where
  text : List Char
  line : Nat
  isFirst : Bool
  deriving DecidableEq, Repr

/-- Where the reader of a header is: between comments, at the beginning of a line or behind it, or
    inside a comment, of which what was read stands last character first. -/
inductive Reading where
  | gap (atStart : Bool)
  | line (comment : Placed)
  | block (comment : Placed)

/-- One more character of a comment under way. -/
def Placed.push (p : Placed) (c : Char) : Placed := { p with text := c :: p.text }

/-- A comment that has been read. -/
def Placed.done (p : Placed) : Placed := { p with text := p.text.reverse }

/-- The comments of a header; `none` when anything else stands between them. -/
def comments? : Reading → Nat → List Char → Option (List Placed)
  | .gap _, _, [] => some []
  | .gap start, n, '/' :: '/' :: cs => comments? (.line ⟨['/', '/'], n, start⟩) n cs
  | .gap start, n, '/' :: '*' :: cs => comments? (.block ⟨['*', '/'], n, start⟩) n cs
  | .gap _, n, c :: cs =>
    if c = '\n' then comments? (.gap true) (n + 1) cs
    else if c = ' ' ∨ c = '\t' ∨ c = '\r' then comments? (.gap false) n cs
    else none
  | .line p, _, [] => some [p.done]
  | .line p, n, c :: cs =>
    if c = '\n' then (comments? (.gap true) (n + 1) cs).map (p.done :: ·)
    else comments? (.line (p.push c)) n cs
  | .block _, _, [] => none
  | .block p, n, '*' :: '/' :: cs =>
    (comments? (.gap false) n cs).map (((p.push '*').push '/').done :: ·)
  | .block p, n, c :: cs =>
    comments? (.block (p.push c)) (if c = '\n' then n + 1 else n) cs

/-! ### Line directives -/

/-- Whether a word of 64 bits may stand for a line or a column: it is read with a sign, positive
    numbers have at most 31 bits, and zero is none. -/
def isLineNumber (n : Nat) : Bool :=
  n != 0 && (n ≤ 0x40000000 || n ≥ 0x8000000000000000)

/-- What precedes the last colon of a text, with what follows it if that is a word of 64 bits. -/
def lastNumber? (cs : List Char) : Option (List Char × Option Nat) :=
  (Text.cutLast? ':' cs).map fun (before, digits) =>
    (before, (if digits.all Text.isDigit then Text.natOf? 10 digits else none).filter
      (· < 0x10000000000000000))

/-- Whether the numbers behind the colons of a line directive are right: a line, or a line and a
    column.  A text without a colon is no directive. -/
def hasLineNumbers (cs : List Char) : Bool :=
  match lastNumber? cs with
  | none => true
  | some (_, none) => false
  | some (before, some last) =>
    match lastNumber? before with
    | some (_, some line) => isLineNumber last && isLineNumber line
    | _ => isLineNumber last

/-- Whether a comment may stand as it is: one that looks like a line directive has to be one. -/
def Placed.isAccepted (p : Placed) : Bool :=
  let isLine := isLineComment p.text
  if Text.hasLead "line ".toList (p.text.drop 2) && (!isLine || p.isFirst) then
    let body := p.text.drop 7
    hasLineNumbers
      (if isLine then (Text.stripTail? ['\r'] body).getD body else body.dropLast.dropLast)
  else true

/-! ### Writing -/

def isLineEnd (item : Option Char) : Bool := item == some '\n' || item == some '\x0c'

/-- A run under way: what is written, where build constraints of the newer and of the older form
    start in it, the line that the text has reached, and whether the last comment went to the end of
    its line. -/
structure Output where
  items : Marked := []
  newer : List Nat := []
  older : List Nat := []
  line : Nat := 0
  afterLine : Bool := false
  deriving DecidableEq, Repr

/-- A line of a comment between two marks; an empty one needs none. -/
def markLine (cs : List Char) : Marked := if cs.isEmpty then [] else none :: cs.map some ++ [none]

/-- The lines of a comment. -/
def markLines : List (List Char) → Marked
  | [] => []
  | [line] => markLine line
  | line :: rest => markLine line ++ some '\x0c' :: markLines rest

/-- What separates a comment from the one before: a tab on the same line, otherwise up to two line
    breaks, and at least one behind a comment that went to the end of its line. -/
def separator (o : Output) (line : Nat) : Marked :=
  if o.items.isEmpty then []
  else if line = o.line ∧ !o.afterLine then [some '\t']
  else
    let breaks := line - o.line
    let breaks := if breaks = 0 ∧ o.afterLine then 1 else breaks
    List.replicate (min breaks 2) (some '\x0c')

/-- Writes one comment. -/
def Output.add (o : Output) (c : Placed) : Output :=
  let text := dropReturns c.text
  let lines := formatComment text
  let before := o.items ++ separator o c.line
  let isLine := isLineComment text
  let isNewer := isLine && (Constraint.newerText? text).isSome
  let isOlder := isLine && !isNewer && (Constraint.olderText? text).isSome
  { items := before ++ markLines lines
    newer := if isNewer then o.newer ++ [before.length] else o.newer
    older := if isOlder then o.older ++ [before.length] else o.older
    line := c.line + (lines.length - 1) + (lines.flatten.filter (· == '\x0c')).length
    afterLine := isLine }

/-- Writes the comments and the line breaks in front of the code, which starts on the given line. -/
def print (codeLine : Nat) (comments : List Placed) : Output :=
  let o := comments.foldl Output.add {}
  if o.items.isEmpty then o
  else
    let ending := if o.afterLine then 1 else 0
    let breaks := min (codeLine - (o.line + ending)) (2 - ending)
    { o with items := o.items ++ List.replicate (ending + breaks) (some '\n') }

end CommentRun

end ServiceCompiler.Code
