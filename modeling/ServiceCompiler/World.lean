import ServiceCompiler.Files.Action
import ServiceCompiler.Scaffold.Plan
import ServiceCompiler.Sql.Scripted

namespace ServiceCompiler

/-!
# The world of a run

What a run of the program acts on: files, a log, external commands, databases and its own output.

* `World` is its state.
* `Run` is an action on it, which may fail; what it changed before it failed stays changed.
-/

/-- Runs external commands: the directory and the command give an action on files. -/
abbrev CommandRunner := String → Command → FileAction Unit

/-- What a run acts on. -/
structure World where
  files : FileTree
  environment : List (String × String) := []
  /-- The changes of files that are still to come while the program watches, by path and content. -/
  edits : List (String × String) := []
  /-- Whether the run was stopped before it began. -/
  stopped : Bool := false
  /-- How external commands are run. -/
  runner : CommandRunner := fun _ _ => pure ()
  /-- The database that opening gives. -/
  database : ScriptedDatabase := {}
  /-- Why no database can be opened. -/
  openFailure : Option Failure := none
  /-- The text printed so far. -/
  output : String := ""
  /-- Whether the log shows everything. -/
  verbose : Bool := false
  /-- The log, the latest record last. -/
  log : List LogRecord := []
  /-- The commands run, each with its directory, the latest last. -/
  commands : List (String × Command) := []
  /-- The databases opened, each with its engine and data source name, the latest last. -/
  opened : List (Engine × String) := []

/-- An action on the world. -/
abbrev Run (α : Type) := ExceptT Failure (StateM World) α

namespace Run

/-- An action on the files of the world. -/
def files {α : Type} (action : FileAction α) : Run α := fun w =>
  let (outcome, files) := action w.files
  (outcome, { w with files })

/-- The value of an outcome, or its failure. -/
def ofExcept {α : Type} (outcome : Except Failure α) : Run α := fun w => (outcome, w)

def report (record : LogRecord) : Run Unit :=
  modify fun w => { w with log := w.log ++ [record] }

def print (text : String) : Run Unit := modify fun w => { w with output := w.output ++ text }

def command (directory : String) (c : Command) : Run Unit := do
  modify fun w => { w with commands := w.commands ++ [(directory, c)] }
  files ((← get).runner directory c)

end Run

/-- The lines of the log; records for debugging show only on demand. -/
def World.logLines (w : World) (elapsed : Number.Duration) : List String :=
  (w.log.filter fun r => w.verbose || r.level != .debug).map (·.line elapsed)

/-- Sessions on the database of the world. -/
def World.executor : Executor World where
  perform s w :=
    let (reply, database) := w.database.answer w.stopped s
    (reply, { w with database })
  log record w := { w with log := w.log ++ [record] }

end ServiceCompiler
