import ServiceCompiler.Directive.Basic

namespace ServiceCompiler

/-!
# Database engines

The two supported databases and the statements they understand.  The engines differ in how
parameters are marked, in how a column is declared, and in whether a table can be created only when
it is missing.
-/

/-- A supported database. -/
inductive Engine where
  | mysql
  | mssql
  deriving DecidableEq, Repr

/-- How arguments are bound to a statement: by position, or by name. -/
inductive Binding where
  | positional
  | named
  deriving DecidableEq, Repr

namespace Engine

/-- The engines, in the order in which they are listed to users. -/
def all : List Engine := [.mysql, .mssql]

/-- The name that selects an engine. -/
def name : Engine → String
  | .mysql => "mysql"
  | .mssql => "mssql"

/-- The names of the engines. -/
def names : List String := all.map name

def ofName? (s : String) : Option Engine := all.find? (·.name == s)

/-- The engine of a name, or the error that lists the names. -/
def ofName (s : String) : Except DirectiveError Engine :=
  match ofName? s with
  | some engine => .ok engine
  | none => .error { line := 0, directive := "db type", value := s, allowed := names }

/-- The name under which the driver of the generated service is registered. -/
def driver : Engine → String
  | .mysql => "mysql"
  | .mssql => "sqlserver"

/-- The package that registers the driver in the generated service. -/
def driverPackage : Engine → String
  | .mysql => "github.com/go-sql-driver/mysql"
  | .mssql => "github.com/microsoft/go-mssqldb"

/-- How the engine binds arguments. -/
def binding : Engine → Binding
  | .mysql => .positional
  | .mssql => .named

/-- The marker of a parameter. -/
def placeholder (e : Engine) (parameter : String) : String :=
  match e.binding with
  | .positional => "?"
  | .named => "@" ++ parameter

/-- Whether text columns arrive as bytes and have to be converted. -/
def textAsBytes : Engine → Bool
  | .mysql => true
  | .mssql => false

/-- Whether the engine tells the identity of an inserted row. -/
def reportsInsertId : Engine → Bool
  | .mysql => true
  | .mssql => false

/-- Whether creating a table that exists does nothing. -/
def conditionalCreate : Engine → Bool
  | .mysql => true
  | .mssql => false

/-! ### Tables -/

/-- A column name as it stands in a table definition. -/
def columnName (e : Engine) (column : String) : String :=
  match e with
  | .mysql => column
  | .mssql => "[" ++ column ++ "]"

/-- The mark of a column whose values are counted up. -/
def identityMark : Engine → String
  | .mysql => "AUTO_INCREMENT"
  | .mssql => "IDENTITY(1,1)"

/-- The definition of one column. -/
def columnDef (e : Engine) (c : Field) : String :=
  " ".intercalate
    ([e.columnName c.name] ++ (if c.type = "" then [] else [c.type])
      ++ (if c.primaryKey then ["PRIMARY KEY"] else [])
      ++ (if c.identity then [e.identityMark] else []))

/-- The statement that creates a table. -/
def createTable (e : Engine) (table : String) (columns : List Field) : String :=
  (if e.conditionalCreate then "CREATE TABLE IF NOT EXISTS " else "CREATE TABLE ") ++ table
    ++ " (" ++ ", ".intercalate (columns.map e.columnDef) ++ ")"

/-- A text as it stands between single quotes: a quote is written twice. -/
def escapeQuotes (cs : List Char) : List Char :=
  cs.flatMap fun c => if c = '\'' then ['\'', '\''] else [c]

/-- The statement that counts the tables of a name; empty when none is needed. -/
def tableExists (e : Engine) (table : String) : String :=
  if e.conditionalCreate then ""
  else "SELECT COUNT(*) FROM INFORMATION_SCHEMA.TABLES WHERE TABLE_NAME = '"
    ++ String.ofList (escapeQuotes table.toList) ++ "'"

/-! ### Rows -/

/-- The statement that selects every row. -/
def selectAll (_ : Engine) (table : String) : String := "SELECT * FROM " ++ table

/-- The statement that selects the row of an identity. -/
def selectById (e : Engine) (table : String) : String :=
  "SELECT * FROM " ++ table ++ " WHERE id = " ++ e.placeholder "id"

/-- The statement that selects at most one row by a column. -/
def selectOneBy (e : Engine) (table column : String) : String :=
  match e with
  | .mysql => "SELECT * FROM " ++ table ++ " WHERE " ++ column ++ " = ? LIMIT 1"
  | .mssql => "SELECT TOP 1 * FROM " ++ table ++ " WHERE " ++ column ++ " = @" ++ column

/-- The statement that inserts one row. -/
def insert (e : Engine) (table : String) (columns : List String) : String :=
  "INSERT INTO " ++ table ++ " (" ++ ", ".intercalate columns ++ ") VALUES ("
    ++ ", ".intercalate (columns.map e.placeholder) ++ ")"

end Engine

end ServiceCompiler
