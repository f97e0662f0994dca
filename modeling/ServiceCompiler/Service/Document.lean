import ServiceCompiler.Document.Decode
import ServiceCompiler.Document.Json
import ServiceCompiler.Document.Yaml
import ServiceCompiler.Failure
import ServiceCompiler.Text.LetterCase

namespace ServiceCompiler

open Document
open Document (Decode Node)

/-!
# Service descriptions as documents

A service description can be written as YAML or JSON and read back.  Both are read as YAML.  What the
directives would refuse is refused here as well.

* `Service.marshal` writes a description, `Service.unmarshal` reads one.
-/

/-! ### Writing -/

def Field.toDocument (f : Field) : Document :=
  .record ([("name", .text f.name), ("type", .text f.type)]
    ++ memberFlag "primaryKey" f.primaryKey ++ memberFlag "identity" f.identity)

def Migration.toDocument (m : Migration) : Document :=
  .record [("table", .text m.table),
    ("fields", match m.fields with
      | none => .missingList
      | some fields => .list (fields.map Field.toDocument))]

def Route.toDocument (r : Route) : Document :=
  .record ([("method", .text r.method), ("path", .text r.path), ("action", .text r.action.name),
    ("collection", .text r.collection)] ++ memberTexts "bodyFields" r.bodyFields)

def Middleware.toDocument (m : Middleware) : Document :=
  .record ([("kind", .text m.kind.name)] ++ memberText "arg" m.arg)

def Database.toDocument (d : Database) : Document :=
  .record (memberText "dialect" d.dialect ++ memberText "url" d.url
    ++ memberTexts "collections" d.collections)

def Auth.toDocument (a : Auth) : Document :=
  .record ([("enabled", .flag a.enabled)] ++ memberText "strategy" a.strategy
    ++ memberTexts "protectedRoutes" a.guarded)

def Frontend.toDocument (f : Frontend) : Document :=
  .record (memberText "framework" f.framework ++ memberTexts "packages" f.packages)

/-- The members of the document of a service behind the first one. -/
def Service.laterMembers (s : Service) : List (String × Document) :=
  memberList "middlewares" (s.middlewares.map Middleware.toDocument)
    ++ memberText "envFile" s.envFile
    ++ [("db", s.database.toDocument)]
    ++ memberList "migrations" (s.migrations.map Migration.toDocument)
    ++ [("auth", s.auth.toDocument)]
    ++ memberList "routes" (s.routes.map Route.toDocument)
    ++ (s.frontend.map fun f => ("frontend", f.toDocument)).toList

def Service.toDocument (s : Service) : Document :=
  .record (("server", .record [("port", .number s.port)]) :: s.laterMembers)

def documentFormats : List String := ["yaml", "json"]

/-- A service description in a format; YAML when none is named. -/
def Service.marshal (s : Service) (format : String) : Except Failure String :=
  if format = "json" then .ok (s.toDocument.toJson ++ "\n")
  else if format = "yaml" ∨ format = "" then .ok (s.toDocument.toYaml 2)
  else .error (.other ("load: unknown format " ++ Text.quoted format))

/-! ### Reading -/

namespace Service

def textMember {α : Type} (key : String) (set : α → String → α) : Decode.Member α :=
  (key, fun a n => do return ((← Decode.text "string" n).map (set a)).getD a)

def numberMember {α : Type} (key : String) (set : α → Int → α) : Decode.Member α :=
  (key, fun a n => do return ((← Decode.number n).map (set a)).getD a)

def flagMember {α : Type} (key : String) (set : α → Bool → α) : Decode.Member α :=
  (key, fun a n => do return ((← Decode.flag n).map (set a)).getD a)

def textsMember {α : Type} (key : String) (set : α → List String → α) : Decode.Member α :=
  (key, fun a n => do
    return ((← Decode.list "[]string" (Decode.text "string") n).map fun xs =>
      set a (xs.getD [])).getD a)

def recordsMember {α β : Type} (key type : String) (members : List (Decode.Member β)) (empty : β)
    (set : α → Option (List β) → α) : Decode.Member α :=
  (key, fun a n => do
    return ((← Decode.list ("[]" ++ type) (Decode.record type members empty) n).map (set a)).getD a)

def recordMember {α β : Type} (key type : String) (members : List (Decode.Member β)) (get : α → β)
    (set : α → β → α) : Decode.Member α :=
  (key, fun a n => do return ((← Decode.record type members (get a) n).map (set a)).getD a)

def middlewareMembers : List (Decode.Member Middleware) :=
  [ ("kind", fun m n => do
      return ((← Decode.text "ast.MiddlewareKind" n).map fun s =>
        { m with kind := MiddlewareKind.ofName s }).getD m),
    textMember "arg" fun m s => { m with arg := s } ]

def databaseMembers : List (Decode.Member Database) :=
  [ textMember "dialect" fun d s => { d with dialect := s },
    textMember "url" fun d s => { d with url := s },
    textsMember "collections" fun d xs => { d with collections := xs } ]

def fieldMembers : List (Decode.Member Field) :=
  [ textMember "name" fun f s => { f with name := s },
    textMember "type" fun f s => { f with type := s },
    flagMember "primaryKey" fun f b => { f with primaryKey := b },
    flagMember "identity" fun f b => { f with identity := b } ]

def migrationMembers : List (Decode.Member Migration) :=
  [ textMember "table" fun m s => { m with table := s },
    recordsMember "fields" "ast.FieldDef" fieldMembers {} fun m xs => { m with fields := xs } ]

def authMembers : List (Decode.Member Auth) :=
  [ flagMember "enabled" fun a b => { a with enabled := b },
    textMember "strategy" fun a s => { a with strategy := s },
    textsMember "protectedRoutes" fun a xs => { a with guarded := xs } ]

def routeMembers : List (Decode.Member Route) :=
  [ textMember "method" fun r s => { r with method := s },
    textMember "path" fun r s => { r with path := s },
    ("action", fun r n => do
      return ((← Decode.text "ast.Action" n).map fun s => { r with action := Action.ofName s }).getD r),
    textMember "collection" fun r s => { r with collection := s },
    textsMember "bodyFields" fun r xs => { r with bodyFields := xs } ]

def frontendMembers : List (Decode.Member Frontend) :=
  [ textMember "framework" fun f s => { f with framework := s },
    textsMember "packages" fun f xs => { f with packages := xs } ]

/-- The client project of a node; nothing in its place gives none. -/
def decodeFrontend (current : Option Frontend) (node : Node) : Decode (Option Frontend) := do
  match ← Decode.target node with
  | .scalar line tag value =>
    Decode.enter node fun _ => do
      let (m, _) ← Decode.meaning tag value
      if m = .null then return none
      Decode.mismatch "ast.FrontendConfig" line tag value
      return current
  | target =>
    if target.tag = nullTag then
      Decode.enter node (Decode.mismatchNode "*ast.FrontendConfig")
      return current
    else
      let f ← Decode.record "ast.FrontendConfig" frontendMembers (current.getD {}) node
      return some (f.getD (current.getD {}))

def members : List (Decode.Member Service) :=
  [ recordMember "server" "ast.ServerConfig" [numberMember "port" fun _ n => n]
      (fun s => s.port) fun s port => { s with port },
    recordsMember "middlewares" "ast.Middleware" middlewareMembers {} fun s xs =>
      { s with middlewares := xs.getD [] },
    textMember "envFile" fun s envFile => { s with envFile },
    recordMember "db" "ast.DBConfig" databaseMembers (fun s => s.database) fun s database =>
      { s with database },
    recordsMember "migrations" "ast.Migration" migrationMembers {} fun s xs =>
      { s with migrations := xs.getD [] },
    recordMember "auth" "ast.AuthConfig" authMembers (fun s => s.auth) fun s auth => { s with auth },
    recordsMember "routes" "ast.RouteDef" routeMembers {} fun s xs => { s with routes := xs.getD [] },
    ("frontend", fun s n => do return { s with frontend := ← decodeFrontend s.frontend n }) ]

/-- A service of a node over another one. -/
def decode (s : Service) (node : Node) : Decode Service := do
  return (← Decode.record "ast.AST" members s node).getD s

/-- Refuses values that the directives would refuse: of the database first, then of the authentication
    and the client project. -/
def check (s : Service) : Except DirectiveError Unit := do
  let refuse := fun (directive value : String) (allowed : List String) =>
    if value ≠ "" ∧ !allowed.contains value then
      throw ({ line := 0, directive, value, allowed } : DirectiveError)
    else pure ()
  refuse "db type" s.database.dialect Engine.names
  refuse "auth strategy" s.auth.strategy [Auth.jwt]
  refuse "frontend framework" ((s.frontend.map (·.framework)).getD "") [Frontend.react]

end Service

def Failure.ofDecode (label : String) : Decode.Error → Failure
  | .fault .malformed => .within label (.documentSyntax "malformed document")
  | .fault .collectionKey => .crash
  | .types messages => .within label (.documentTypes messages)

/-- Reads a service description, which has to be one that directives can give. -/
def Service.unmarshal (text : String) : Except Failure Service := do
  let s ← (Decode.run Service.decode {} text).mapError (Failure.ofDecode "unmarshal ast")
  s.check.mapError .directive
  return s

/-- Whether a path names a written service description, by the ending of its last element. -/
def isDocumentPath (path : String) : Bool :=
  match Text.cutLast? '.' path.toList with
  | none => false
  | some (_, ending) => ["yaml", "yml", "json"].contains (Text.lower (String.ofList ending))

end ServiceCompiler
