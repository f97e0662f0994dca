import ServiceCompiler.CommandLine.Parse

namespace ServiceCompiler.CommandLine

/-!
# Invocations

What a command line asks for, with the defaults put in.
-/

/-- What a service is generated from, where to, and what overrides its settings. -/
structure Generation where
  input : String
  output : String
  /-- The module path; empty when the settings tell. -/
  modulePath : String
  noViews : Bool
  deriving DecidableEq, Repr

/-- A command with its values. -/
inductive Call where
  | generate (g : Generation) (skipFrontend : Bool)
  | watch (g : Generation)
  | inspect (input format : String)
  | migrate (input dataSource : String)
  | init (path modulePath : String) (workers : Int) (force : Bool)
  deriving DecidableEq, Repr

/-- What a command line asks for. -/
structure Invocation where
  help : Bool
  verbose : Bool
  /-- The path of the settings file; empty when there is none. -/
  config : String
  call : Call
  deriving DecidableEq, Repr

namespace Parsed

/-- The value of a flag, the last one given. -/
def value? (p : Parsed) (owner : Option CommandName) (flag : String) : Option FlagValue :=
  ((p.flags.filter fun g => g.owner = owner ∧ g.flag = flag).getLast?).map (·.value)

/-- Whether a switch is on. -/
def isOn (p : Parsed) (owner : Option CommandName) (flag : String) : Bool :=
  match p.value? owner flag with
  | some (.switch on) => on
  | _ => false

/-- The text of a flag, or its default. -/
def text (p : Parsed) (owner : Option CommandName) (flag default : String) : String :=
  match p.value? owner flag with
  | some (.text s) => s
  | _ => default

/-- The number of a flag, zero by default. -/
def number (p : Parsed) (owner : Option CommandName) (flag : String) : Int :=
  match p.value? owner flag with
  | some (.number n) => n
  | _ => 0

end Parsed

/-- The name of the settings file when none is given. -/
def defaultConfig : String := "essence.yaml"

/-- The variable of the environment that has the data source name. -/
def dataSourceVariable : String := "ESSENCE_DSN"

/-- Checks the format and that no argument is missing, in this order. -/
def Parsed.check (p : Parsed) : Except UsageError Unit := do
  let format := p.text (some .inspect) "format" "yaml"
  if !formats.contains format then
    throw (.notOneOf { name := "format", short := some 'f' } formats format)
  let command := p.command.getD .generate
  let missing := (command.arguments.drop p.arguments.length).filter (·.required)
  if !missing.isEmpty then throw (.missing missing)

/-- The call of a checked command line. -/
def Parsed.call (t : FileTree) (environment : List (String × String)) (p : Parsed) : Call :=
  let command := p.command.getD .generate
  let owner := some command
  let argument := fun i => p.arguments.getD i ""
  let generation : Generation :=
    { input := argument 0, output := argument 1, modulePath := p.text owner "module" "",
      noViews := p.isOn owner "no-views" }
  match command with
  | .generate => .generate generation (p.isOn owner "skip-frontend")
  | .watch => .watch generation
  | .inspect => .inspect (argument 0) (p.text owner "format" "yaml")
  | .migrate =>
    .migrate (argument 0) (p.text owner "dsn" ((environment.lookup dataSourceVariable).getD ""))
  | .init =>
    .init (p.arguments.headD (expand t defaultConfig)) (p.text owner "module" "")
      (p.number owner "workers") (p.isOn owner "force")

/-- The invocation of a command line. -/
def Invocation.ofWords (t : FileTree) (environment : List (String × String)) (words : List String) :
    Except UsageError Invocation := do
  let p ← parse t words
  let help := p.isOn none "help"
  if !help then p.check
  return {
    help, verbose := p.isOn none "verbose", config := p.text none "config" ""
    call := p.call t environment }

end ServiceCompiler.CommandLine
