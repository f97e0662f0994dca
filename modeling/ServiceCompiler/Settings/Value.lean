import ServiceCompiler.Text.Basic

namespace ServiceCompiler

/-!
# Values of options

The value that an error about an option reports, and how it is shown.
-/

/-- A value that an option may be given. -/
inductive OptionValue where
  | none
  | flag (b : Bool)
  | number (n : Int)
  | text (s : String)
  | list (values : List OptionValue)
  | record (members : List (String × OptionValue))
  deriving Repr, Inhabited

namespace OptionValue

mutual

/-- A value as it is shown: texts as they are, lists and records between brackets. -/
def shown : OptionValue → String
  | .none => "<nil>"
  | .flag b => if b then "true" else "false"
  | .number n => Text.decimalInt n
  | .text s => s
  | .list values => "[" ++ " ".intercalate (shownAll values) ++ "]"
  | .record members => "map[" ++ " ".intercalate (shownMembers members) ++ "]"

def shownAll : List OptionValue → List String
  | [] => []
  | v :: rest => shown v :: shownAll rest

/-- The members of a record as they are shown. -/
def shownMembers : List (String × OptionValue) → List String
  | [] => []
  | (key, v) :: rest => (key ++ ":" ++ shown v) :: shownMembers rest

end

end OptionValue

end ServiceCompiler
