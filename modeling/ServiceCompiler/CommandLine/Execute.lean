import ServiceCompiler.CommandLine.Invocation
import ServiceCompiler.Compile
import ServiceCompiler.Scaffold.Run
import ServiceCompiler.Settings.File
import ServiceCompiler.Sql.Migrator
import ServiceCompiler.Sql.Monitor

namespace ServiceCompiler.CommandLine

open Settings

/-!
# Executing commands

What each command does to the world.

* `execute` reads a command line and runs its command.
* `exitCode` is the code with which the program ends.
-/

/-! ### Generating -/

/-- Reports the lines that had no effect. -/
def warn (warnings : List Warning) : Run Unit :=
  warnings.forM fun w => Run.report {
    level := .warn, message := "line ignored"
    attributes := [("line", .number w.line.number), ("kind", .text w.kind.name),
      ("text", .text w.line.text)] }

def reportWritten (artifacts : List Artifact) : Run Unit :=
  artifacts.forM fun a => Run.report {
    level := .debug, message := "wrote"
    attributes := [("path", .text a.path), ("bytes", .number (Text.octetCount a.content))] }

/-- The changes of the settings: those of the settings file, then the given ones. -/
def settingsChanges (config : String) (overrides : List Change) :
    Run (List Change) := do
  if config = "" then return overrides
  let settings ← Run.ofExcept (load (← get).files config)
  Run.report { level := .debug, message := "loaded config", attributes := [("path", .text config)] }
  return .all (some settings) :: overrides

/-- The changes of the settings that a generation asks for. -/
def Generation.overrides (g : Generation) : List Change :=
  (if g.modulePath = "" then [] else [.modulePath g.modulePath])
    ++ (if g.noViews then [.withoutViews] else [])

/-- Compiles the input and writes the artifacts. -/
def Generation.compile (config : String) (g : Generation) : Run Compilation := do
  let changes ← settingsChanges config g.overrides
  let w ← get
  let c ← Run.ofExcept (Compilation.ofFile changes w.stopped w.files g.input)
  warn c.warnings
  let written ← Run.files (c.write w.stopped g.output)
  Run.report {
    level := .info, message := "service generated"
    attributes := [("output", .text g.output), ("files", .number written.files),
      ("bytes", .number written.octets), ("duration", .elapsed)] }
  reportWritten c.artifacts
  return c

/-- Runs an action whose failure is only reported; what the program does not survive is passed on. -/
def reporting (record : Failure → LogRecord) (action : Run Unit) : Run Unit := fun w =>
  match action w with
  | (.error .crash, w') => (.error .crash, w')
  | (.error f, w') => (.ok (), { w' with log := w'.log ++ [record f] })
  | (.ok (), w') => (.ok (), w')

/-- Sets up the client project of a service unless that is skipped.  The service is there by then, so a
    failure is only reported. -/
def Generation.setUpClient (g : Generation) (skipFrontend : Bool) (c : Compilation) : Run Unit :=
  if skipFrontend then return
  else
    match ScaffoldPlan.ofFrontend? c.service.frontend c.service.listenPort with
    | none => return
    | some plan =>
      reporting
        (fun f => {
          level := .error, message := "frontend not scaffolded"
          attributes := [("error", .failure f)] })
        (Scaffold.run g.output plan)

/-- Generates a service and its client project. -/
def generate (config : String) (g : Generation) (skipFrontend : Bool) : Run Unit := do
  let c ← g.compile config
  g.setUpClient skipFrontend c

/-! ### Watching -/

/-- Generates the service; a failure is only reported. -/
def rebuild (config : String) (g : Generation) : Run Unit :=
  reporting
    (fun f => {
      level := .error, message := "compile failed"
      attributes := [("input", .text g.input), ("error", .failure f)] })
    (discard (g.compile config))

/-- Generates the service again after each change of a file. -/
def followEdits (config : String) (g : Generation) : List (String × String) → Run Unit
  | [] => return
  | (path, content) :: rest => do
    modify fun w => { w with files := (FileAction.write path content w.files).2 }
    rebuild config g
    followEdits config g rest

/-- Generates a service, and again whenever its input changes, unless the run was stopped. -/
def watch (config : String) (g : Generation) : Run Unit := do
  rebuild config g
  Run.report { level := .info, message := "watching", attributes := [("input", .text g.input)] }
  let w ← get
  if w.stopped then return
  set { w with edits := [] }
  followEdits config g w.edits

/-! ### Inspecting -/

/-- Prints the description of a service. -/
def inspect (input format : String) : Run Unit := do
  let b ← Run.ofExcept (Build.ofFile (← get).files input)
  warn b.warnings
  Run.print (← Run.ofExcept (b.service.marshal format))

/-! ### Migrating -/

def openDatabase (e : Engine) (dataSource : String) : Run Unit := do
  modify fun w => { w with opened := w.opened ++ [(e, dataSource)] }
  match (← get).openFailure with
  | none => return
  | some f => throw (.within ("migrate: open " ++ e.name) f)

/-- The data source name: the given one, or that of the service. -/
def dataSourceName (e : Engine) (given url : String) : Except Failure String :=
  if given ≠ "" then .ok given
  else if url = "" then .error (.other "migrate: no --dsn and no connect directive")
  else
    match e.connection url with
    | .error _ => .error .crash
    | .ok c => .ok c.dsn.toText

/-- Runs a migration on the database, counting its statements. -/
def runMigration (e : Engine) (migrations : List Migration) : Run Unit := fun w =>
  let monitored := World.executor.monitored (Monitor.logging World.executor)
  let (outcome, w', statistics) := (ServiceCompiler.migrate (e.plan migrations)).run monitored (w, {})
  let record : LogRecord := {
    level := .debug, message := "migration statements"
    attributes := [("stats", .text statistics.text)] }
  (outcome, { w' with log := w'.log ++ [record], database := w'.database.close })

/-- Creates the tables of a service. -/
def migrateTables (input dataSource : String) : Run Unit := do
  let b ← Run.ofExcept (Build.ofFile (← get).files input)
  warn b.warnings
  let service := b.service
  if !service.hasDatabase then throw (.other "migrate: no db type directive")
  let e ← Run.ofExcept ((Engine.ofName service.database.dialect).mapError .directive)
  let name ← Run.ofExcept (dataSourceName e dataSource service.database.url)
  if service.migrations.isEmpty then
    Run.report {
      level := .info, message := "nothing to migrate", attributes := [("input", .text input)] }
  else
    openDatabase e name
    runMigration e service.migrations

/-! ### Settings -/

/-- Whether a settings file may be written at a path. -/
def checkTarget (t : FileTree) (path : String) (force : Bool) : Except Failure Unit :=
  match t.stat path with
  | .ok _ =>
    if force then .ok ()
    else .error (.other ("init: " ++ path ++ " exists, pass --force to overwrite"))
  | .error e => if e.problem = .missing then .ok () else .error (.within "init" (.file e))

/-- The changes of the settings with which a settings file starts. -/
def initialChanges (modulePath : String) (workers : Int) : List Change :=
  (if modulePath = "" then [] else [.modulePath modulePath])
    ++ (if workers > 0 then [.workers workers] else [])

/-- Writes a settings file. -/
def initialSettings (path modulePath : String) (workers : Int) (force : Bool) : Run Unit := do
  Run.ofExcept (checkTarget (← get).files path force)
  let settings ← Run.ofExcept
    ((ofChanges (initialChanges modulePath workers)).mapError .settings)
  Run.files ((settings.save path).labeled (.within "init"))
  Run.report { level := .info, message := "config written", attributes := [("path", .text path)] }

/-! ### The program -/

/-- What the program prints when it is asked for help. -/
def helpText : String :=
  String.join ((["Usage: essence <command> [flags]", "", "Commands:"]
    ++ CommandName.all.map fun c =>
      "  " ++ " ".intercalate (c.name :: c.arguments.map (·.shown) ++ c.flags.map fun f =>
        "[" ++ f.long ++ "]")).map (· ++ "\n"))

/-- Runs a command with the settings of a file. -/
def runCall (config : String) : Call → Run Unit
  | .generate g skipFrontend => generate config g skipFrontend
  | .watch g => watch config g
  | .inspect input format => inspect input format
  | .migrate input dataSource => migrateTables input dataSource
  | .init path modulePath workers force => initialSettings path modulePath workers force

def Invocation.run (i : Invocation) : Run Unit := do
  modify fun w => { w with verbose := i.verbose }
  if i.help then Run.print helpText else runCall i.config i.call

/-- Runs a command line. -/
def execute (words : List String) : Run Unit := do
  let w ← get
  match Invocation.ofWords w.files w.environment words with
  | .error e => throw (.usage e.message)
  | .ok i => i.run

/-- The code with which the program ends. -/
def exitCode : Except Failure Unit → Nat
  | .ok () => 0
  | .error f => if (f.cause? .usage).isSome then 2 else 1

end ServiceCompiler.CommandLine
