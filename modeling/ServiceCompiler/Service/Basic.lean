namespace ServiceCompiler

/-!
# Service descriptions

A `Service` is the complete description of one web service: the port it listens on, its middleware
chain, its database, tables, authentication, routes and client project.

Names that come from outside (`MiddlewareKind`, `Action`) keep an `other` case, so that a description
read from a document loses nothing; the case never holds a known name (`ofName`).
-/

/-! ### Middleware -/

/-- What an entry of the middleware chain does. -/
inductive MiddlewareKind where
  | json
  | cors
  | logger
  | static
  | other (name : String)
  deriving DecidableEq, Repr

def MiddlewareKind.name : MiddlewareKind → String
  | .json => "json"
  | .cors => "cors"
  | .logger => "logger"
  | .static => "static"
  | .other name => name

def MiddlewareKind.ofName (name : String) : MiddlewareKind :=
  if name = "json" then .json
  else if name = "cors" then .cors
  else if name = "logger" then .logger
  else if name = "static" then .static
  else .other name

/-- One entry of the middleware chain.  The argument is the directory of static files. -/
structure Middleware where
  kind : MiddlewareKind := .other ""
  arg : String := ""
  deriving DecidableEq, Repr

/-! ### Database and tables -/

/-- The database of a service.  The dialect is empty when none was chosen; the collections are kept
    for the reader only. -/
structure Database where
  dialect : String := ""
  url : String := ""
  collections : List String := []
  deriving DecidableEq, Repr

/-- One column of a table. -/
structure Field where
  name : String := ""
  type : String := ""
  primaryKey : Bool := false
  identity : Bool := false
  deriving DecidableEq, Repr

/-- The creation of one table.  The fields are `none` when no list was given, which a document
    tells apart from an empty list. -/
structure Migration where
  table : String := ""
  fields : Option (List Field) := none
  deriving DecidableEq, Repr

/-- The columns of the table to create. -/
def Migration.columns (m : Migration) : List Field := m.fields.getD []

/-! ### Authentication -/

/-- Token authentication.  Guarded routes are listed by their path as written. -/
structure Auth where
  enabled : Bool := false
  strategy : String := ""
  guarded : List String := []
  deriving DecidableEq, Repr

/-- The only supported authentication strategy. -/
def Auth.jwt : String := "jwt"

/-! ### Routes -/

/-- What a route does with its collection. -/
inductive Action where
  | listAll
  | getById
  | insert
  | other (name : String)
  deriving DecidableEq, Repr

def Action.name : Action → String
  | .listAll => "listAll"
  | .getById => "getById"
  | .insert => "insert"
  | .other name => name

def Action.ofName (name : String) : Action :=
  if name = "listAll" then .listAll
  else if name = "getById" then .getById
  else if name = "insert" then .insert
  else .other name

/-- One endpoint.  Only inserting routes have body fields. -/
structure Route where
  method : String := ""
  path : String := ""
  action : Action := .other ""
  collection : String := ""
  bodyFields : List String := []
  deriving DecidableEq, Repr

/-! ### Client project -/

/-- The client project that goes with the service. -/
structure Frontend where
  framework : String := ""
  packages : List String := []
  deriving DecidableEq, Repr

/-- The only supported client framework. -/
def Frontend.react : String := "react"

/-! ### The whole description -/

/-- The port used when none is given. -/
def defaultPort : Int := 3000

/-- The description of one service. -/
structure Service where
  port : Int := defaultPort
  middlewares : List Middleware := []
  envFile : String := ""
  database : Database := {}
  migrations : List Migration := []
  auth : Auth := {}
  routes : List Route := []
  frontend : Option Frontend := none
  deriving DecidableEq, Repr

namespace Service

/-- The port the service listens on. -/
def listenPort (s : Service) : Int := if s.port ≤ 0 then defaultPort else s.port

/-- Whether a database was chosen. -/
def hasDatabase (s : Service) : Bool := s.database.dialect != ""

/-- Whether requests may carry a token. -/
def tokenAuth (s : Service) : Bool := s.auth.enabled && s.auth.strategy == Auth.jwt

/-- Whether the route with this path requires a token.  Paths are compared as written. -/
def isGuarded (s : Service) (path : String) : Bool :=
  s.tokenAuth && s.auth.guarded.contains path

/-- Whether the chain has a middleware of this kind. -/
def hasMiddleware (s : Service) (kind : MiddlewareKind) : Bool :=
  s.middlewares.any (·.kind == kind)

end Service

end ServiceCompiler
