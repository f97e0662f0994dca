import ServiceCompiler.Text.Quoted

namespace ServiceCompiler

open Text

/-!
# Import paths

Which texts may serve as the path of a module.  A path is a sequence of elements between slashes; an
element has a restricted set of characters and must not be a name that some file systems reserve.
-/

/-- Why a text is no import path. -/
inductive ImportPathError where
  | empty
  | leadingDash
  | doubleSlash
  | trailingSlash
  | emptyElement
  | dotsOnly (element : String)
  | trailingDot
  | invalidChar (c : Char)
  | reservedName (name : String)
  | shortName
  deriving DecidableEq, Repr

def ImportPathError.message : ImportPathError → String
  | .empty => "empty string"
  | .leadingDash => "leading dash"
  | .doubleSlash => "double slash"
  | .trailingSlash => "trailing slash"
  | .emptyElement => "empty path element"
  | .dotsOnly element => "invalid path element " ++ quoted element
  | .trailingDot => "trailing dot in path element"
  | .invalidChar c => "invalid char " ++ quotedChar c
  | .reservedName name => quoted name ++ " disallowed as path element component on Windows"
  | .shortName => "trailing tilde and digits in path element"

namespace ImportPath

/-- Whether the character may stand in a path element. -/
def isPathChar (c : Char) : Bool :=
  isAsciiLetter c || isDigit c || "-._~+".toList.contains c

/-- Names that may not stand before the first dot of an element, in lower case. -/
def reservedNames : List String :=
  ["con", "prn", "aux", "nul"]
    ++ (List.range 9).map (fun i => "com" ++ decimal (i + 1))
    ++ (List.range 9).map (fun i => "lpt" ++ decimal (i + 1))

/-- Whether a name ends in a tilde and digits. -/
def isShortName (name : List Char) : Bool :=
  match cutLast? '~' name with
  | none => false
  | some (_, tail) => !tail.isEmpty && tail.all isDigit

def checkElement (element : List Char) : Except ImportPathError Unit :=
  if element.isEmpty then .error .emptyElement
  else if element.all (· == '.') then .error (.dotsOnly (String.ofList element))
  else if element.getLast? = some '.' then .error .trailingDot
  else
    match element.find? (!isPathChar ·) with
    | some c => .error (.invalidChar c)
    | none =>
      let short := element.takeWhile (· != '.')
      let name := String.ofList short
      if reservedNames.contains (lowerAscii name) then .error (.reservedName name)
      else if isShortName short then .error .shortName
      else .ok ()

/-- Checks a path; the first fault counts. -/
def check (path : String) : Except ImportPathError Unit :=
  let cs := path.toList
  if cs.isEmpty then .error .empty
  else if cs.head? = some '-' then .error .leadingDash
  else if contains ['/', '/'] cs then .error .doubleSlash
  else if cs.getLast? = some '/' then .error .trailingSlash
  else (splitOn '/' cs).forM checkElement

end ImportPath

end ServiceCompiler
