import ServiceCompiler.Document.Basic
import ServiceCompiler.Text.Basic

namespace ServiceCompiler.Document

/-!
# Documents as JSON

The indented form, two spaces a level.  Besides what has to be escaped, the characters that mean
something in a web page are.
-/

/-- A character as it stands in a quoted text. -/
def escapeJson (c : Char) : List Char :=
  if c = '"' then ['\\', '"']
  else if c = '\\' then ['\\', '\\']
  else if c = '\n' then ['\\', 'n']
  else if c = '\r' then ['\\', 'r']
  else if c = '\t' then ['\\', 't']
  else if c.toNat = 8 then ['\\', 'b']
  else if c.toNat = 12 then ['\\', 'f']
  else if c.toNat < 0x20 ∨ c = '<' ∨ c = '>' ∨ c = '&' ∨ c.toNat = 0x2028 ∨ c.toNat = 0x2029 then
    ['\\', 'u'] ++ Text.hex 4 c.toNat
  else [c]

/-- A quoted text. -/
def jsonText (s : String) : List Char := '"' :: s.toList.flatMap escapeJson ++ ['"']

/-- A line break and the indentation of a level. -/
def jsonBreak (level : Nat) : List Char := '\n' :: List.replicate (2 * level) ' '

/-- The parts of a list or record on lines of their own between brackets. -/
def jsonParts (level : Nat) (left right : Char) (parts : List (List Char)) : List Char :=
  if parts.isEmpty then [left, right]
  else
    left :: jsonBreak (level + 1) ++ (',' :: jsonBreak (level + 1)).intercalate parts
      ++ jsonBreak level ++ [right]

mutual

/-- The characters of a document whose parts are indented from a level on. -/
def jsonChars (level : Nat) : Document → List Char
  | .flag b => (if b then "true" else "false").toList
  | .number n => (Text.decimalInt n).toList
  | .text s => jsonText s
  | .list items => jsonParts level '[' ']' (jsonItems (level + 1) items)
  | .missingList => "null".toList
  | .record members => jsonParts level '\x7b' '\x7d' (jsonMembers (level + 1) members)

def jsonItems (level : Nat) : List Document → List (List Char)
  | [] => []
  | d :: rest => jsonChars level d :: jsonItems level rest

def jsonMembers (level : Nat) : List (String × Document) → List (List Char)
  | [] => []
  | (key, d) :: rest => (jsonText key ++ [':', ' '] ++ jsonChars level d) :: jsonMembers level rest

end

def toJson (d : Document) : String := String.ofList (jsonChars 0 d)

end ServiceCompiler.Document
