import ServiceCompiler.Service.Basic
import ServiceCompiler.Text.Quoted

namespace ServiceCompiler

/-!
# Directives

A directive is one statement about a service.  `Directive.apply` is its whole meaning: the service
with that statement added.
-/

/-- One statement of the language. -/
inductive Directive where
  /-- Opens the description and says nothing else. -/
  | express
  | port (number : Nat)
  | middleware (entry : Middleware)
  | environment (file : String)
  | dialect (name : String)
  | connect (url : String)
  | collection (name : String)
  | authEnable
  | authStrategy (name : String)
  | guard (path : String)
  | framework (name : String)
  | package (name : String)
  | route (endpoint : Route)
  | migration (creation : Migration)
  deriving DecidableEq, Repr

/-- The list with `x` at its end, unless it is in the list already. -/
def appendNew (xs : List String) (x : String) : List String :=
  if xs.contains x then xs else xs ++ [x]

/-- The client project of a service, empty when there is none yet. -/
def Service.client (s : Service) : Frontend := s.frontend.getD {}

/-- The service with the statement added. -/
def Directive.apply (d : Directive) (s : Service) : Service :=
  match d with
  | .express => s
  | .port number => { s with port := number }
  | .middleware entry => { s with middlewares := s.middlewares ++ [entry] }
  | .environment file => { s with envFile := file }
  | .dialect name => { s with database := { s.database with dialect := name } }
  | .connect url => { s with database := { s.database with url := url } }
  | .collection name =>
    { s with
      database := { s.database with collections := appendNew s.database.collections name } }
  | .authEnable => { s with auth := { s.auth with enabled := true } }
  | .authStrategy name => { s with auth := { s.auth with strategy := name } }
  | .guard path => { s with auth := { s.auth with guarded := appendNew s.auth.guarded path } }
  | .framework name => { s with frontend := some { s.client with framework := name } }
  | .package name =>
    { s with frontend := some { s.client with packages := s.client.packages ++ [name] } }
  | .route r => { s with routes := s.routes ++ [r] }
  | .migration m => { s with migrations := s.migrations ++ [m] }

/-! ### Values outside a directive's choice -/

/-- A directive whose value is none of the allowed ones. -/
structure UnsupportedValue where
  directive : String
  value : String
  allowed : List String
  deriving DecidableEq, Repr

/-- An unsupported value and the line it stands on; a line below one is not known. -/
structure DirectiveError extends UnsupportedValue where
  line : Int
  deriving DecidableEq, Repr

def DirectiveError.message (e : DirectiveError) : String :=
  "essence: "
    ++ (if e.line > 0 then "line " ++ Text.decimalInt e.line ++ ": " else "")
    ++ "unsupported " ++ e.directive ++ " " ++ Text.quoted e.value
    ++ (if e.allowed.isEmpty then ""
        else " (allowed: " ++ ", ".intercalate e.allowed ++ ")")

end ServiceCompiler
