import ServiceCompiler.CommandLine.Execute

namespace ServiceCompiler.Main

open CommandLine

/-!
# The program

The command line on real files.  What the arguments name is read into a file tree, the command runs on
it, and what it changed is written back.  External commands and databases are out of reach here, so
what needs them fails and says so.
-/

/-- The failure of an external command. -/
def noCommand (c : Command) : Failure :=
  .within ("exec: " ++ Text.quoted c.name) (.other "executable file not found in $PATH")

/-- The failure of opening a database. -/
def noDatabase : Failure := .other "no connection"

/-- Reads what stands at a path, with all that lies below it. -/
partial def load (path : String) (t : FileTree) : IO FileTree := do
  let place := (← IO.currentDir) / path
  let address := (Files.parts path).filter (· ≠ "")
  if ← place.isDir then
    let mut t := t.put address .directory
    for entry in ← place.readDir do
      t ← load (Files.join path entry.fileName) t
    return t
  else if ← place.pathExists then
    let octets : Text.Octets := (← IO.FS.readBinFile place).toList
    return t.put address (.file octets.toText)
  else return t

/-- The directories above the place of a path. -/
def loadAbove (path : String) (t : FileTree) : IO FileTree := do
  let mut t := t
  for lead in Files.leads (Files.parent path) do
    if ← ((← IO.currentDir) / lead).isDir then
      t := t.put ((Files.parts lead).filter (· ≠ "")) .directory
  return t

/-- The paths that words may name. -/
def namedPaths (t : FileTree) (words : List String) : List String :=
  let values := words.flatMap fun w =>
    match Text.cutAt? '=' w.toList with
    | some (_, value) => [w, String.ofList value]
    | none => [w]
  (defaultConfig :: values).map fun w => Files.clean (expand t w)

/-- Writes back what changed. -/
def store (before after : FileTree) : IO Unit := do
  for (address, entry) in after.entries.reverse do
    if before.get? address ≠ some entry then
      let path := "/" ++ "/".intercalate address
      match entry with
      | .directory => IO.FS.createDirAll path
      | .file content => IO.FS.writeFile path content

/-- Runs an action on the world, stores what it changed and prints what it reported. -/
def perform (action : Run Unit) (w : World) : IO (Except Failure Unit × World) := do
  let start ← IO.monoNanosNow
  let (outcome, after) := action w
  store w.files after.files
  let elapsed : Number.Duration := (← IO.monoNanosNow) - start
  IO.print after.output
  for line in after.logLines elapsed do
    IO.eprintln line
  return (outcome, { after with output := "", log := [] })

/-- Generates the service again whenever its input changes, until the program is stopped. -/
partial def follow (config : String) (g : Generation) (content : String) (w : World) : IO Unit := do
  IO.sleep 100
  let files ← load g.input w.files
  match files.read g.input with
  | .ok now =>
    if now = content then follow config g content w
    else
      let (_, w) ← perform (rebuild config g) { w with files }
      follow config g now w
  | .error _ => follow config g content w

end ServiceCompiler.Main

open ServiceCompiler CommandLine in
/-- Runs the command line. -/
def main (words : List String) : IO UInt32 := do
  let place := (← IO.currentDir).toString
  let userDirectory := (← IO.getEnv "HOME").getD "/"
  let mut files : FileTree := { workingDirectory := place, userDirectory }
  for path in Main.namedPaths files words do
    files ← Main.load path (← Main.loadAbove path files)
  let environment := match ← IO.getEnv dataSourceVariable with
    | some value => [(dataSourceVariable, value)]
    | none => []
  let w : World :=
    { files, environment, openFailure := some Main.noDatabase
      runner := fun _ c => throw (Main.noCommand c) }
  let (outcome, w) ← Main.perform (execute words) w
  match outcome with
  | .error f => IO.eprintln ("essence: " ++ f.text)
  | .ok () =>
    match Invocation.ofWords w.files environment words with
    | .ok { config, call := .watch g, help := false, .. } =>
      Main.follow config g ((w.files.read g.input).toOption.getD "") w
    | _ => pure ()
  return (exitCode outcome).toUInt32
