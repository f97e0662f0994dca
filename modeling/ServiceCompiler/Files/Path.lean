import ServiceCompiler.Text.Basic

namespace ServiceCompiler.Files

/-!
# File paths

Paths are texts whose parts are divided by slashes.

* `clean` is the shortest path that names the same place.
* `join`, `parent`, `lastPart` put paths together and take them apart; their results are clean.
* `leads` lists a path's beginnings, which are the directories that it passes through.
-/

/-- The parts of a path, with the empty ones. -/
def parts (path : String) : List String := (Text.splitOn '/' path.toList).map String.ofList

def isRooted (path : String) : Bool := Text.hasLead ['/'] path.toList

/-- One part after the parts kept so far, the last one first.  A step up takes a part away, unless
    there is none that it could take. -/
def keepPart (rooted : Bool) (kept : List String) (part : String) : List String :=
  if part = "" ∨ part = "." then kept
  else if part = ".." then
    match kept with
    | [] => if rooted then [] else [".."]
    | top :: rest => if top = ".." then ".." :: top :: rest else rest
  else part :: kept

/-- The parts without empty parts and without detours. -/
def cleanParts (rooted : Bool) (ps : List String) : List String :=
  (ps.foldl (keepPart rooted) []).reverse

/-- The shortest path that names the same place. -/
def clean (path : String) : String :=
  let rooted := isRooted path
  let text := "/".intercalate (cleanParts rooted (parts path))
  if rooted then "/" ++ text else if text = "" then "." else text

/-- A path below another one. -/
def join (path below : String) : String :=
  if path = "" ∧ below = "" then ""
  else if path = "" then clean below
  else if below = "" then clean path
  else clean (path ++ "/" ++ below)

/-- The directory that a path lies in. -/
def parent (path : String) : String :=
  match Text.cutLast? '/' path.toList with
  | none => "."
  | some (before, _) => clean (String.ofList (before ++ ['/']))

def lastPart (path : String) : String :=
  if path = "" then "."
  else
    let kept := (path.toList.reverse.dropWhile (· == '/')).takeWhile (· != '/')
    if kept.isEmpty then "/" else String.ofList kept.reverse

/-- The beginnings of a path that end before a slash, and the path itself, the shortest first. -/
def leads (path : String) : List String :=
  let step := fun (acc : List String × Option String) (part : String) =>
    let lead := match acc.2 with
      | none => part
      | some before => before ++ "/" ++ part
    (lead :: acc.1, some lead)
  (((parts path).foldl step ([], none)).1.reverse).filter (· ≠ "")

end ServiceCompiler.Files
