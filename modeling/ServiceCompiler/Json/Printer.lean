import ServiceCompiler.Document.Json
import ServiceCompiler.Json.Parser

namespace ServiceCompiler.Json

open Document (jsonText jsonParts)

/-!
# Writing JSON

The indented form.  The members of a record are written in the bytewise order of their names, each
name once with its last value.
-/

/-- The literal that is read from a text, if it stands for the same number as a given one. -/
def sameNumber? (literal : String) (text : List Char) : Option String :=
  match readNumber text with
  | .ok (s, []) =>
    if (literalParts s).1 = (literalParts literal).1 ∧ magnitude? s = magnitude? literal then some s else none
  | _ => none

/-- A number in the fewest digits that are read back, if any are: positional from a millionth up to `10 ^ 21`. -/
def numberText (literal : String) : String :=
  let sign := if (literalParts literal).1 then ['-'] else []
  let texts := ((magnitude? literal).getD ⟨0, 0⟩).decimals.map fun d =>
    let isPositional := d.digits.isEmpty || (-5 ≤ d.point && d.point ≤ 21)
    sign ++ (if isPositional then d.positional else d.scientific 1).toList
  (texts.findSome? (sameNumber? literal)).getD literal

/-- The last member of a name. -/
def lastMember? {α : Type} (members : List (String × α)) (key : String) : Option (String × α) :=
  members.reverse.find? (·.1 == key)

/-- The members in order, of each name the last one. -/
def sortMembers {α : Type} (members : List (String × α)) : List (String × α) :=
  ((members.map Prod.fst).eraseDups.mergeSort Text.before).filterMap (lastMember? members)

/-- A member, given the characters of its value. -/
def memberText (m : String × List Char) : List Char := jsonText m.1 ++ [':', ' '] ++ m.2

mutual

/-- The characters of a value whose parts are indented from a level on. -/
def chars (level : Nat) : Json → List Char
  | .null => "null".toList
  | .flag b => (if b then "true" else "false").toList
  | .number literal => (numberText literal).toList
  | .text s => jsonText s
  | .list items => jsonParts level '[' ']' (itemChars (level + 1) items)
  | .record members =>
    jsonParts level '\x7b' '\x7d' ((sortMembers (memberChars (level + 1) members)).map memberText)

def itemChars (level : Nat) : List Json → List (List Char)
  | [] => []
  | item :: rest => chars level item :: itemChars level rest

/-- The names of the members of a record with the characters of their values. -/
def memberChars (level : Nat) : List (String × Json) → List (String × List Char)
  | [] => []
  | (key, value) :: rest => (key, chars level value) :: memberChars level rest

end

/-- A value as text. -/
def toText (j : Json) : String := String.ofList (chars 0 j)

end ServiceCompiler.Json
