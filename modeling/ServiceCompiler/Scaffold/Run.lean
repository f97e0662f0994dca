import ServiceCompiler.Scaffold.App
import ServiceCompiler.Scaffold.Package
import ServiceCompiler.World

namespace ServiceCompiler.Scaffold

open FileAction

/-!
# Setting up a client project

A client project is set up step by step: its directory, the commands of the plan, and the files that
tie it to the backend.  The first step that fails ends the work.
-/

/-! ### Steps on files -/

/-- Names the backend in a package file. -/
def patchProxy (path backend : String) : FileAction Unit := do
  let text ← read path
  let patched ← (patchPackage backend text : Except Failure String)
  write path patched

/-- Writes the source files of the client. -/
def writeSources (directory backend : String) : FileAction Unit := do
  makeDirectories directory
  (sources backend).forM fun (name, content) => write (Files.join directory name) content

/-- Puts the routes on the start page. -/
def rewireApp (path : String) : FileAction Unit := do
  let text ← read path
  write path (rewire text)

/-! ### The run -/

/-- A step of the work.  Its failure is reported and told with its name; what the program does not
    survive is passed on as it is. -/
def step (name : String) (action : Run Unit) : Run Unit := fun w =>
  match action w with
  | (.error .crash, w') => (.error .crash, w')
  | (.error f, w') =>
    let record : LogRecord := {
      level := .error, message := "frontend setup failed"
      attributes := [("step", .text name), ("error", .failure f)] }
    (.error (.step name f), { w' with log := w'.log ++ [record] })
  | (.ok (), w') => (.ok (), w')

/-- Runs a command as a step of its own. -/
def runCommand (directory : String) (c : Command) : Run Unit := do
  Run.report { level := .info, message := "running", attributes := [("cmd", .text c.line)] }
  step c.line (Run.command directory c)

/-- Sets up the client project below a directory. -/
def run (project : String) (plan : ScaffoldPlan) : Run Unit := do
  let directory := Files.join project "client"
  let sourceDirectory := Files.join directory "src"
  step "create client directory" (Run.files (makeDirectories directory))
  Run.report {
    level := .info, message := "setting up react frontend"
    attributes := [("dir", .text directory)] }
  plan.commands.forM (runCommand directory)
  step "patch package.json"
    (Run.files (patchProxy (Files.join directory "package.json") plan.backend))
  step "write sources" (Run.files (writeSources sourceDirectory plan.backend))
  step "rewire App.js" (Run.files (rewireApp (Files.join sourceDirectory "App.js")))
  Run.report {
    level := .info, message := "react frontend ready"
    attributes := [("proxy", .text plan.backend),
      ("start", .text ("cd " ++ directory ++ " && npm start"))] }

/-! ### Scripted commands -/

/-- A way to run commands that is laid down beforehand. -/
structure RunnerScript where
  /-- The command line that fails. -/
  failing : String := ""
  /-- The files that a new project starts with, by path below its directory. -/
  files : List (String × String) := []
  deriving Repr

/-- Runs commands by a script: one command line fails, and the command that makes a project writes its
    files. -/
def RunnerScript.runner (s : RunnerScript) : CommandRunner := fun directory c => do
  if c.line = s.failing then throw (.other "exit status 1")
  if c.name = "npx" then
    s.files.forM fun (name, content) => do
      let path := Files.join directory name
      makeDirectories (Files.parent path)
      write path content

end ServiceCompiler.Scaffold
