import ServiceCompiler.Naming.Inflection
import ServiceCompiler.Service.Path

namespace ServiceCompiler.Naming

/-!
# Names derived from routes

How the functions and files of the generated routes are called before clashes are resolved.
-/

/-- Abbreviations that are written in capitals throughout. -/
def abbreviations : List String := ["ID", "URL", "API", "JSON", "HTTP"]

/-- A word with its first letter raised; later capitals stay, all else is lowered. -/
def capitalized : List Char → List Char
  | [] => []
  | c :: cs => Text.toUpper c :: cs.map fun d => if Text.isCapital d then d else Text.toLower d

/-- One word of a joined name. -/
def nameWord (word : List Char) : List Char :=
  let raised := word.map Text.toUpper
  if abbreviations.contains (String.ofList raised) then raised else capitalized word

/-- The words of letters and digits of a text, joined with a capital at each start. -/
def joinedName (s : String) : String :=
  String.ofList
    ((Text.runs (fun c => Text.isLetter c || Text.isDecimalDigit c) s.toList).flatMap nameWord)

def handlerName (r : Route) : String :=
  let collection := if joinedName r.collection = "" then "Root" else joinedName r.collection
  match r.action with
  | .listAll => "list" ++ collection
  | .getById => "get" ++ joinedName (singular r.collection)
  | .insert => "create" ++ joinedName (singular r.collection)
  | .other _ => "handle" ++ collection

/-- The name of the function that registers a group. -/
def registerName (segment : String) : String :=
  let name := joinedName segment
  "Register" ++ (if name = "" then "Root" else name)

/-- The name of the file of a group.  A name that belongs to another file, or in which an underscore
    could be taken for a build condition, gets the ending `_group`. -/
def fileName (segment : String) : String :=
  if segment = "" then "root.go"
  else
    let name := segment.toList.map fun c =>
      if Text.isAsciiLetter c || Text.isDigit c then c else '_'
    let plain := String.ofList name
    let clashes := ["auth", "index", "root"].contains plain || name.contains '_'
    plain ++ (if clashes then "_group" else "") ++ ".go"

end ServiceCompiler.Naming
