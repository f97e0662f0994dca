import ServiceCompiler.Code.Source

namespace ServiceCompiler.Code

/-!
# Database statements in generated code

A statement is sent together with its arguments.  Engines that bind by name get every argument with
the name of its parameter.
-/

/-- An argument: the parameter it is for, and the expression of its value. -/
structure Argument where
  parameter : String
  value : String
  deriving DecidableEq, Repr

/-- A statement with its arguments. -/
structure BoundStatement where
  statement : String
  arguments : List Argument
  deriving DecidableEq, Repr

def Argument.expression (e : Engine) (a : Argument) : String :=
  match e.binding with
  | .positional => a.value
  | .named => call "sql.Named" [lit a.parameter, a.value]

namespace BoundStatement

def send (b : BoundStatement) (e : Engine) (method : String) : String :=
  call ("db.Get()." ++ method)
    (["ctx", lit b.statement] ++ b.arguments.map (·.expression e))

/-- The packages that sending uses. -/
def uses (b : BoundStatement) (e : Engine) : List Package :=
  [.own "db"]
    ++ (if e.binding = .named ∧ b.arguments ≠ [] then [Package.sql] else [])

/-- Sends a query and reads the result. -/
def query (b : BoundStatement) (e : Engine) : List String :=
  ["rows, err := " ++ b.send e "QueryContext"] ++ onError passError
    ++ ["result, err := db.Rows(rows)"] ++ onError passError

end BoundStatement

end ServiceCompiler.Code
