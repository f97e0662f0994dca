import ServiceCompiler.Service.Basic
import ServiceCompiler.Text.Blank

namespace ServiceCompiler

open Text

/-!
# Column lists

The arguments of the directives that name columns.  A list of columns is cut at the commas outside
parentheses (`splitFields`), so `amount: DECIMAL(10,2), name: TEXT` has two columns.  Each column is
a name, a colon and the words of its type, among which `pk` and `identity` are marks (`Field.ofText?`).
-/

/-- The segments of a text between the commas outside parentheses, the depth being `depth` at the
    beginning; there is always at least one.  A closing parenthesis never takes the depth below
    zero. -/
def topSegments : Nat → List Char → List (List Char)
  | _, [] => [[]]
  | depth, c :: cs =>
    if c = ',' ∧ depth = 0 then [] :: topSegments 0 cs
    else
      let depth := if c = '(' then depth + 1 else if c = ')' then depth - 1 else depth
      match topSegments depth cs with
      | [] => [[c]]
      | segment :: segments => (c :: segment) :: segments

/-- The trimmed segments of a list of columns; an empty last one is left out. -/
def splitFields (s : String) : List String :=
  let segments := (topSegments 0 s.toList).map fun segment => String.ofList (trim segment)
  if segments.getLast? = some "" then segments.dropLast else segments

/-- The column written by one segment: its name ends at the first colon, or at the first space when
    there is no colon.  There is none without a name. -/
def Field.ofText? (s : String) : Option Field :=
  let text := trim s.toList
  let (name, rest) :=
    match cutAt? ':' text with
    | some parts => parts
    | none => (cutAt? ' ' text).getD (text, [])
  let name := trim name
  if name.isEmpty then none
  else
    let words := (words rest).map String.ofList
    some
      { name := String.ofList name
        type := " ".intercalate (words.filter fun w => w != "pk" && w != "identity")
        primaryKey := words.contains "pk"
        identity := words.contains "identity" }

/-- The columns written by a list; segments without a name are skipped. -/
def fieldsOfText (s : String) : List Field := (splitFields s).filterMap Field.ofText?

/-- The table of a migration named `create_<table>_table`; any other name is the table's own. -/
def tableOfName (name : String) : String :=
  match (stripLead? "create_".toList name.toList).bind (stripTail? "_table".toList) with
  | none => name
  | some [] => name
  | some table => String.ofList table

/-- The names of a list separated by commas; empty ones are left out. -/
def bodyFieldsOfText (s : String) : List String :=
  ((splitOn ',' s.toList).map fun f => String.ofList (trim f)).filter (· != "")

end ServiceCompiler
