import ServiceCompiler.Code.Fragment.Layout
import ServiceCompiler.Code.Statement
import ServiceCompiler.Naming.Group

namespace ServiceCompiler.Code

/-!
# Route files

The file that mounts all groups, and one file per group with its registrations and handlers.

* `registrations` lists what a group registers: a route that repeats the method and path of an
  earlier one is left out.
* `handlerStatement?` is the database statement behind a route.
-/

/-! ### Registrations -/

/-- The path of a route below the mount point of its group.  A route that retrieves one item needs a
    parameter and gets one when its path has none. -/
def registeredPath (r : Route) : String :=
  let path := Path.relative r.path
  if r.action = .getById ∧ Path.params r.path = [] then path ++ "/:id" else path

/-- The parameter that holds the identity of an item. -/
def idParameter (r : Route) : String := (Path.params r.path).getLast?.getD "id"

/-- A route and the name of its handler. -/
structure NamedRoute where
  route : Route
  handler : String
  deriving DecidableEq, Repr

/-- What tells two registrations of a group apart. -/
def NamedRoute.endpoint (r : NamedRoute) : String := r.route.method ++ " " ++ registeredPath r.route

/-- The routes whose endpoint is not among those seen. -/
def firstEndpoints : List String → List NamedRoute → List NamedRoute
  | _, [] => []
  | seen, r :: rest =>
    if seen.contains r.endpoint then firstEndpoints seen rest
    else r :: firstEndpoints (r.endpoint :: seen) rest

/-- The routes of a group that are mounted: the first one of each endpoint. -/
def mountedRoutes (g : NamedGroup) : List NamedRoute :=
  firstEndpoints [] (List.zipWith NamedRoute.mk g.routes g.handlers)

structure Registration where
  method : String
  path : String
  /-- Whether a token is required before the handler. -/
  guarded : Bool
  handler : String
  deriving DecidableEq, Repr

def registrations (s : Service) (g : NamedGroup) : List Registration :=
  (mountedRoutes g).map fun r =>
    { method := r.route.method
      path := registeredPath r.route
      guarded := s.isGuarded r.route.path
      handler := r.handler }

/-- What a registration hands over: the path, the check of the token if there is one, and the
    handler. -/
def Registration.arguments (r : Registration) : List String :=
  [lit r.path] ++ (if r.guarded then ["auth.Authenticate"] else []) ++ [r.handler]

/-- The line of a registration whose method is a name. -/
def Registration.line (r : Registration) : String := call ("r." ++ r.method) r.arguments

/-- A registration before it is laid out.  The method may be any code. -/
def Registration.source (r : Registration) : String :=
  "r . " ++ r.method ++ " (" ++ ",".intercalate r.arguments ++ ")"

/-- The function that registers a group; one without a body stands on one line as long as it is
    short.  Methods that are no names are code, which has to be laid out; `none` when that is not
    possible. -/
def registerLines? (head : String) (entries : List Registration) : Option (List String) :=
  if entries.isEmpty then
    some (if Text.octetCount head < 100 then [head ++ " \x7b\x7d"] else block head [])
  else if entries.all fun r => Fragment.isName r.method.toList then
    some (block head (entries.map (·.line)))
  else
    let source := "\x7b\n" ++ "\n".intercalate (entries.map (·.source)) ++ "\n\x7d"
    (Fragment.formatBlock? source.toList).map fun body => [head ++ " " ++ String.ofList body]

/-! ### Handlers -/

/-- The body fields of a route without repeats. -/
def distinctBodyFields (r : Route) : List String := r.bodyFields.eraseDups

def documentValue (field : String) : String := "doc[" ++ lit field ++ "]"

/-- The statement behind a route; an action that is not known has none. -/
def handlerStatement? (e : Engine) (r : Route) : Option BoundStatement :=
  match r.action with
  | .listAll => some { statement := e.selectAll r.collection, arguments := [] }
  | .getById =>
    some
      { statement := e.selectById r.collection
        arguments := [⟨"id", call "c.Param" [lit (idParameter r)]⟩] }
  | .insert =>
    let fields := distinctBodyFields r
    some
      { statement := e.insert r.collection fields
        arguments := fields.map fun f => ⟨f, documentValue f⟩ }
  | .other _ => none

/-- The beginning of a handler that reads. -/
def readBody (e : Engine) (b : BoundStatement) : List String :=
  ["ctx := c.Request.Context()"] ++ b.query e

/-- The body of a handler that lists a collection. -/
def listBody (e : Engine) (b : BoundStatement) : List String :=
  readBody e b ++ [respond "StatusOK" "result"]

/-- The body of a handler that retrieves one item. -/
def getBody (e : Engine) (b : BoundStatement) : List String :=
  readBody e b
    ++ block "if len(result) == 0" (respondError "StatusNotFound" "Not found")
    ++ [respond "StatusOK" "result[0]"]

/-- The body of a handler that inserts: the submitted fields, and with them the identity of the row
    where the engine reports one. -/
def insertBody (e : Engine) (r : Route) (b : BoundStatement) : List String :=
  let exec := b.send e "ExecContext"
  ["var body map[string]any"]
    ++ ifFails "err := c.ShouldBindJSON(&body)"
      [respond "StatusBadRequest" (reply "error" "err.Error()"), "return"]
    ++ keyed "doc := gin.H"
      ((distinctBodyFields r).map fun f => (lit f, "body[" ++ lit f ++ "]"))
    ++ ["ctx := c.Request.Context()"]
    ++ (if e.reportsInsertId then
          ["res, err := " ++ exec] ++ onError passError
            ++ ["id, err := res.LastInsertId()"] ++ onError passError
            ++ ["// Submitted fields win over the generated id.",
                "out := " ++ braced "gin.H" (lit "id" ++ ": id")]
            ++ block "for k, v := range doc" ["out[k] = v"]
            ++ [respond "StatusOK" "out"]
        else ifFails ("_, err := " ++ exec) passError ++ [respond "StatusOK" "doc"])

def handlerBody (e : Engine) (r : Route) (b : BoundStatement) : List String :=
  match r.action with
  | .listAll => listBody e b
  | .getById => getBody e b
  | .insert => insertBody e r b
  | .other _ => []

/-- The handler of a route; an action that is not known has none. -/
def handlerFunction? (e : Engine) (r : NamedRoute) : Option Declaration :=
  (handlerStatement? e r.route).map fun b =>
    function (r.handler ++ "(c *gin.Context)")
      [r.handler ++ " handles " ++ r.route.method ++ " " ++ r.route.path ++ "."]
      ([Package.gin, Package.http] ++ b.uses e)
      (handlerBody e r.route b)

/-! ### Files -/

/-- The function that registers a group; `none` when the formatter refuses a method. -/
def registerFunction? (g : NamedGroup) (entries : List Registration) : Option Declaration :=
  let own := if entries.any (·.guarded) then [Package.own "auth"] else []
  (registerLines? ("func " ++ g.register ++ "(r gin.IRouter)") entries).map fun lines =>
    { kind := .function
      doc := [g.register ++ " mounts the " ++ g.mountPath ++ " routes."]
      uses := .gin :: own
      lines }

/-- The file of a group; `none` when the formatter refuses a method.  Without a database nothing is
    registered. -/
def groupFile? (s : Service) (engine : Option Engine) (g : NamedGroup) : Option SourceFile :=
  match engine with
  | none => (registerFunction? g []).map fun f => { package := "routes", declarations := [f] }
  | some e =>
    (registerFunction? g (registrations s g)).map fun f =>
      { package := "routes"
        declarations := f :: (mountedRoutes g).filterMap (handlerFunction? e) }

/-- A call that registers a group below its mount path. -/
def mountLine (register path : String) : String := call register [call "r.Group" [lit path]]

/-- The lines of the function that mounts all groups. -/
def mountBody (s : Service) (hasEngine : Bool) (groups : List NamedGroup) : List String :=
  (if hasEngine then ifFails "err := db.Wait(ctx)" ["return err"] else [])
    ++ (if s.tokenAuth then [mountLine "RegisterAuth" "/auth"] else [])
    ++ groups.map (fun g => mountLine g.register g.mountPath)
    ++ ["return nil"]

/-- The file that mounts all groups. -/
def indexFile (s : Service) (hasEngine : Bool) (groups : List NamedGroup) : SourceFile where
  package := "routes"
  declarations :=
    [ function "Mount(ctx context.Context, r gin.IRouter) error"
        ["Mount registers every route below r. With a database it first",
         "waits for the connection and migrations to be ready."]
        ([Package.context, .gin] ++ (if hasEngine then [.own "db"] else []))
        (mountBody s hasEngine groups) ]

end ServiceCompiler.Code
