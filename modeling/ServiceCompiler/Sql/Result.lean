import ServiceCompiler.Failure
import ServiceCompiler.Number.Shortest
import ServiceCompiler.Number.Word

namespace ServiceCompiler

/-!
# Results of queries

The rows that a query gives, and the number that a count expects to find in them.
-/

/-- A value of a row. -/
inductive Cell where
  | null
  | flag (b : Bool)
  | number (n : Int)
  | real (negative : Bool) (magnitude : Number.Binary)
  | text (s : String)
  | octets (s : String)
  deriving DecidableEq, Repr

/-- The rows of a query. -/
structure ResultSet where
  columns : List String
  rows : List (List Cell)
  deriving DecidableEq, Repr

namespace Cell

/-- The text of a floating-point number: positional from `0.0001` up to a million. -/
def realText (negative : Bool) (magnitude : Number.Binary) : String :=
  let digits := magnitude.shortest
  let isPositional := digits.digits.isEmpty || (-3 ≤ digits.point && digits.point ≤ 6)
  (if negative then "-" else "")
    ++ (if isPositional then digits.positional else digits.scientific 2)

/-- The text of a value, of nothing apart. -/
def shown : Cell → String
  | .null => ""
  | .flag b => if b then "true" else "false"
  | .number n => Text.decimalInt n
  | .real negative magnitude => realText negative magnitude
  | .text s => s
  | .octets s => s

def typeName : Cell → String
  | .null => "<nil>"
  | .flag _ => "bool"
  | .number _ => "int64"
  | .real .. => "float64"
  | .text _ => "string"
  | .octets _ => "[]uint8"

/-- The number that a value gives, or why it gives none. -/
def toCount (c : Cell) : Except String Int :=
  let reject := fun (reason : String) =>
    Except.error ("converting driver.Value type " ++ c.typeName ++ " (" ++ Text.quoted c.shown
      ++ ") to a int: " ++ reason)
  match c with
  | .null => .error "converting NULL to int is unsupported"
  | c =>
    let (negative, digits) := match c.shown.toList with
      | '-' :: rest => (true, rest)
      | '+' :: rest => (false, rest)
      | rest => (false, rest)
    match Text.natOf? 10 digits with
    | none => reject "invalid syntax"
    | some magnitude =>
      let n : Int := if negative then Int.neg magnitude else magnitude
      if Number.fitsSigned n then .ok n else reject "value out of range"

end Cell

/-- The number in the first row, which has to have one column. -/
def ResultSet.toCount (r : ResultSet) : Except String Int :=
  match r.rows with
  | [] => .error "sql: no rows in result set"
  | row :: _ =>
    match r.columns with
    | [column] =>
      ((row.headD .null).toCount).mapError fun reason =>
        "sql: Scan error on column index 0, name " ++ Text.quoted column ++ ": " ++ reason
    | columns =>
      .error ("sql: expected " ++ Text.decimal columns.length
        ++ " destination arguments in Scan, not 1")

end ServiceCompiler
