import ServiceCompiler.Text.Quoted

namespace ServiceCompiler.CommandLine

/-!
# The commands of the program

The commands with their flags and arguments, as data from which command lines are read.
-/

inductive CommandName where
  | generate
  | watch
  | inspect
  | migrate
  | init
  deriving DecidableEq, Repr

/-- What a flag takes. -/
inductive FlagKind where
  /-- Nothing, or whether it is on. -/
  | switch
  | text
  | path
  | number
  deriving DecidableEq, Repr

structure Flag where
  name : String
  /-- Its short form. -/
  short : Option Char := none
  kind : FlagKind := .text
  deriving DecidableEq, Repr

/-- An argument, which is a path. -/
structure Argument where
  name : String
  /-- Whether a file has to be there. -/
  mustExist : Bool := false
  required : Bool := true
  deriving DecidableEq, Repr

def Flag.long (f : Flag) : String := "--" ++ f.name

/-- The forms of a flag, the long one first. -/
def Flag.forms (f : Flag) : List String :=
  f.long :: (f.short.toList.map fun c => "-" ++ String.singleton c)

/-- An argument as it is named in messages. -/
def Argument.shown (a : Argument) : String := "<" ++ a.name ++ ">"

def commonFlags : List Flag :=
  [ { name := "help", short := some 'h', kind := .switch },
    { name := "verbose", short := some 'v', kind := .switch },
    { name := "config", kind := .path } ]

/-- The formats of a printed service description. -/
def formats : List String := ["yaml", "json"]

namespace CommandName

def all : List CommandName := [.generate, .watch, .inspect, .migrate, .init]

def name : CommandName → String
  | .generate => "generate"
  | .watch => "watch"
  | .inspect => "inspect"
  | .migrate => "migrate"
  | .init => "init"

def ofName? (s : String) : Option CommandName := all.find? (·.name == s)

def flags : CommandName → List Flag
  | .generate =>
    [ { name := "module" }, { name := "no-views", kind := .switch },
      { name := "skip-frontend", kind := .switch } ]
  | .watch => [{ name := "module" }, { name := "no-views", kind := .switch }]
  | .inspect => [{ name := "format", short := some 'f' }]
  | .migrate => [{ name := "dsn" }]
  | .init =>
    [ { name := "module" }, { name := "workers", kind := .number },
      { name := "force", kind := .switch } ]

def arguments : CommandName → List Argument
  | .generate => [{ name := "input", mustExist := true }, { name := "output" }]
  | .watch => [{ name := "input", mustExist := true }, { name := "output" }]
  | .inspect => [{ name := "input", mustExist := true }]
  | .migrate => [{ name := "input", mustExist := true }]
  | .init => [{ name := "path", required := false }]

end CommandName

end ServiceCompiler.CommandLine
