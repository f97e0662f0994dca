import ServiceCompiler.Sql.DataSource
import ServiceCompiler.Sql.Engine

namespace ServiceCompiler

open Text (Octets)
open Text.Octets

/-!
# Connection settings

How the connect URL of a service becomes the settings of a connection.  Nothing is refused here: a URL
that cannot be used is passed on as it is, or replaced by the defaults of the engine.
-/

/-- The settings of a connection: the data source name, and its parts where the engine has them. -/
structure Connection where
  dsn : Octets := []
  user : Octets := []
  password : Octets := []
  host : Octets := []
  port : Octets := []
  database : Octets := []
  deriving DecidableEq, Repr

/-- The path of a URL without its first slash. -/
def Url.databaseName (u : Url) : Octets :=
  match u.path with
  | 0x2f :: rest => rest
  | path => path

/-- The first of two texts that is not empty. -/
def firstNonEmpty (a b : Octets) : Octets := if a.isEmpty then b else a

/-! ### MySQL -/

def Url.firstParameters (u : Url) : List (Octets × Octets) :=
  u.parameters.foldl
    (fun acc (key, value) => if acc.any (·.1 == key) then acc else acc ++ [(key, value)]) []

def DataSource.ofUrl (u : Url) : DataSource where
  user := u.userName
  password := u.password
  network := ofString "tcp"
  address :=
    Url.joinHostPort (firstNonEmpty u.hostName (ofString "localhost"))
      (firstNonEmpty u.port (ofString "3306"))
  database := u.databaseName
  parseTime := true
  parameters := u.firstParameters

/-- The data source name for a connect URL: a `mysql` URL is converted, a data source name is
    completed, and anything else is kept.  Times are always parsed.  The only failure is a parameter
    that the reader of names gives up on. -/
def mysqlName (raw : String) : Except DataSourceError Octets :=
  let octets := ofString raw
  if octets.isEmpty then .ok []
  else
    match (Url.parse? octets).filter (·.scheme = ofString "mysql") with
    | some u => .ok (DataSource.ofUrl u).write
    | none =>
      match DataSource.parse octets with
      | .ok source => .ok { source with parseTime := true }.write
      | .error .removedParameter => .error .removedParameter
      | .error _ => .ok octets

/-! ### SQL Server -/

/-- The data source name of SQL Server settings. -/
def Connection.sqlServerName (c : Connection) : Octets :=
  let url : Url :=
    { scheme := ofString "sqlserver"
      user :=
        if c.user.isEmpty && c.password.isEmpty then none
        else some { name := c.user, password := some c.password }
      host := Url.joinHostPort c.host c.port
      query := Url.writeParameters
        [(ofString "database", c.database),
         (ofString "encrypt", ofString "disable")] }
  url.write

/-- The settings of a connect URL; whatever it leaves out takes its default. -/
def Connection.sqlServer (raw : String) : Connection :=
  let octets := ofString raw
  let u := if octets.isEmpty then {} else (Url.parse? octets).getD {}
  let c : Connection :=
    { user := u.userName
      password := u.password
      host := firstNonEmpty u.hostName (ofString "localhost")
      port := firstNonEmpty u.port (ofString "1433")
      database := firstNonEmpty u.databaseName (ofString "master") }
  { c with dsn := c.sqlServerName }

/-! ### Both -/

/-- The settings for a connect URL. -/
def Engine.connection (e : Engine) (raw : String) : Except DataSourceError Connection :=
  match e with
  | .mysql => (mysqlName raw).map fun dsn => { dsn }
  | .mssql => .ok (Connection.sqlServer raw)

/-- Whether a data source name is accepted when a database is opened; SQL Server looks at it only
    when connecting. -/
def Engine.checkName (e : Engine) (dsn : String) : Except DataSourceError Unit :=
  match e with
  | .mysql => (DataSource.parse (ofString dsn)).map fun _ => ()
  | .mssql => .ok ()

end ServiceCompiler
