import ServiceCompiler.Code.App
import ServiceCompiler.Code.Auth
import ServiceCompiler.Code.Database
import ServiceCompiler.Code.ModuleFile
import ServiceCompiler.Code.Routes
import ServiceCompiler.Failure

namespace ServiceCompiler

open Code

/-!
# Artifacts

The files of a generated service.  They are rendered in a fixed order, of which the first failure
counts, and listed by path.
-/

/-- A generated file; the path is relative to the output directory. -/
structure Artifact where
  path : String
  content : String
  deriving DecidableEq, Repr

/-- What a service is generated from.  The engine is the one the code targets. -/
structure Generator where
  service : Service
  settings : Settings := {}
  engine : Option Engine := none
  /-- Whether there is anything to render the source files with. -/
  rendersSource : Bool := true
  deriving Repr

/-- A source file to render; there may be no need for it, or no way to make it. -/
structure SourceTask where
  path : String
  source : Except Failure (Option SourceFile)

namespace Generator

/-- The generator of a service for the engine that the service names. -/
def ofService (settings : Settings) (s : Service) : Except DirectiveError Generator :=
  if s.hasDatabase then
    (Engine.ofName s.database.dialect).map fun engine => { service := s, settings, engine }
  else .ok { service := s, settings }

/-- The generator with another number of workers; one below one changes nothing. -/
def withWorkers (g : Generator) (count : Int) : Generator :=
  if count > 0 then { g with settings := { g.settings with workers := count } } else g

def groups (g : Generator) : List NamedGroup := nameGroups (Route.groups g.service.routes)

/-- The engine of the generated code; none without a database. -/
def target (g : Generator) : Option Engine := if g.service.hasDatabase then g.engine else none

/-- The failure of a file that the formatter refuses. -/
def refused (path : String) : Failure := .generation path "render" "" none

def databaseSource (g : Generator) : Except Failure (Option SourceFile) :=
  match g.target with
  | none => .ok none
  | some e =>
    match e.connection g.service.database.url with
    | .error _ => .error .crash
    | .ok c => .ok (databaseFile e c (e.plan g.service.migrations))

def groupPath (group : NamedGroup) : String := "routes/" ++ group.file

/-- The source files in the order in which they are rendered. -/
def tasks (g : Generator) : List SourceTask :=
  let whenTokens := fun (f : SourceFile) => if g.service.tokenAuth then some f else none
  [ ⟨"app.go", .ok (appFile g.service g.target.isSome)⟩,
    ⟨"db/db.go", g.databaseSource⟩,
    ⟨"auth/auth.go", .ok (whenTokens authFile)⟩,
    ⟨"routes/auth.go", .ok (whenTokens (authRoutesFile g.settings g.target))⟩,
    ⟨"routes/index.go", .ok (indexFile g.service g.target.isSome g.groups)⟩ ]
    ++ g.groups.map fun group =>
      { path := groupPath group
        source :=
          match groupFile? g.service g.target group with
          | some file => .ok (some file)
          | none => .error (refused (groupPath group)) }

/-- Renders one file. -/
def render (g : Generator) (task : SourceTask) : Except Failure (Option Artifact) := do
  match ← task.source with
  | none => return none
  | some file =>
    match file.render? g.settings with
    | none => throw (refused task.path)
    | some content => return some { path := task.path, content }

/-- Whether everything is there that generating needs. -/
def checkReady (g : Generator) : Except Failure Unit := do
  if !g.rendersSource then
    throw (.settings {
      option := "Dialect"
      message := "no dialect set: call WithDialect() before Artifacts()" })
  if g.service.hasDatabase && g.engine.isNone then
    throw (.settings {
      option := "SQL", value := .text g.service.database.dialect
      message := "database set but no dialect: call WithSQL() before Artifacts()" })

/-- The artifacts by path.  A run that was stopped before fails at its first file. -/
def artifacts (g : Generator) (stopped : Bool) : Except Failure (List Artifact) := do
  g.checkReady
  if stopped then throw .canceled
  let files ← g.tasks.mapM g.render
  let moduleArtifact := { path := "go.mod", content := moduleFile g.settings g.service }
  return (files.filterMap id ++ [moduleArtifact]).mergeSort fun a b => Text.before a.path b.path

end Generator

end ServiceCompiler
