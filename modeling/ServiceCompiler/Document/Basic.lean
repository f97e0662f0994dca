namespace ServiceCompiler

/-!
# Documents

The tree that is written as a document: records with named members, lists, and plain values.
-/

/-- A document or a part of one. -/
inductive Document where
  | flag (b : Bool)
  | number (n : Int)
  | text (s : String)
  | list (items : List Document)
  /-- A list that was never given; only one of the formats tells it from an empty one. -/
  | missingList
  | record (members : List (String × Document))
  deriving Repr

namespace Document

/-- A member that is left out when its text is empty. -/
def memberText (key s : String) : List (String × Document) := if s = "" then [] else [(key, .text s)]

/-- A member that is left out when it does not hold. -/
def memberFlag (key : String) (b : Bool) : List (String × Document) :=
  if b then [(key, .flag true)] else []

/-- A member that is left out when its list is empty. -/
def memberList (key : String) (items : List Document) : List (String × Document) :=
  if items.isEmpty then [] else [(key, .list items)]

/-- A member that is left out when its list of texts is empty. -/
def memberTexts (key : String) (items : List String) : List (String × Document) :=
  memberList key (items.map .text)

end Document

end ServiceCompiler
