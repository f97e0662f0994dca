import ServiceCompiler.Text.Blank

namespace ServiceCompiler

/-!
# Source lines

A source is a sequence of physical lines.  A directive stands on one line; blank lines say nothing,
and the blanks at the ends of a line do not count.
-/

/-- A line of the source with its number, counted from one. -/
structure Line where
  number : Int
  text : String
  deriving DecidableEq, Repr

namespace Line

/-- The lines that are not blank, the first physical line having the number `first`. -/
def number? (first : Int) : List (List Char) → List Line
  | [] => []
  | raw :: rest =>
    let text := Text.trim raw
    if text.isEmpty then number? (first + 1) rest
    else { number := first, text := String.ofList text } :: number? (first + 1) rest

/-- The lines of a source that are not blank, trimmed and numbered. -/
def ofSource (source : String) : List Line := number? 1 (Text.splitOn '\n' source.toList)

end Line

end ServiceCompiler
