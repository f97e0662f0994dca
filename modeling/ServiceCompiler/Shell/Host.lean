import ServiceCompiler.Failure
import ServiceCompiler.Scaffold.Plan
import ServiceCompiler.Shell.Line

namespace ServiceCompiler.Shell

/-!
# Running commands

A host with a few basic commands: those that do nothing, those that print, and the shell.
-/

/-- How a command ended. -/
inductive Ending where
  | status (n : Nat)
  | signal (name : String)
  deriving DecidableEq, Repr

/-- What a command printed and how it ended. -/
structure Result where
  output : String := ""
  ending : Ending := .status 0
  deriving DecidableEq, Repr

/-- The failure of an ending that is not a success. -/
def Ending.failure? : Ending → Option Failure
  | .status 0 => none
  | .status n => some (.other ("exit status " ++ Text.decimal n))
  | .signal name => some (.other ("signal: " ++ name))

/-- The status by which a shell knows an ending. -/
def Ending.code : Ending → Nat
  | .status n => n
  | .signal _ => 128

/-! ### Commands -/

/-- Whether an argument switches the line break or the escapes of printing. -/
def isPrintFlag (arg : String) : Bool :=
  match arg.toList with
  | '-' :: c :: cs => (c :: cs).all fun c => c == 'n' || c == 'e' || c == 'E'
  | _ => false

/-- The text with its escapes taken. -/
def unescape : List Char → List Char
  | '\\' :: 'n' :: rest => '\n' :: unescape rest
  | '\\' :: 't' :: rest => '\t' :: unescape rest
  | '\\' :: 'r' :: rest => '\r' :: unescape rest
  | '\\' :: '\\' :: rest => '\\' :: unescape rest
  | c :: rest => c :: unescape rest
  | [] => []

/-- Prints its arguments. -/
def echo (args : List String) : Result :=
  let flags := (args.takeWhile isPrintFlag).flatMap (·.toList)
  let text := " ".intercalate (args.dropWhile isPrintFlag)
  let escapes := (flags.filter fun c => c == 'e' || c == 'E').getLast? == some 'e'
  let shown := if escapes then String.ofList (unescape text.toList) else text
  { output := if flags.contains 'n' then shown else shown ++ "\n" }

/-- The signals by name and number, and what ending by them is called. -/
def signals : List (List String × String) :=
  [(["1", "HUP"], "hangup"), (["2", "INT"], "interrupt"), (["3", "QUIT"], "quit"),
    (["6", "ABRT"], "aborted"), (["9", "KILL"], "killed"), (["15", "TERM"], "terminated")]

/-- The ending by a signal that a shell sends to itself. -/
def killSelf (args : List String) : Ending :=
  let name := match args with
    | flag :: "$$" :: _ => String.ofList (flag.toList.drop 1)
    | _ => "TERM"
  .signal (((signals.find? fun s => s.1.contains name).map (·.2)).getD "terminated")

/-- The result of a command other than the shell, in an empty directory: it finds no file there. -/
def basic? (directory : String) (name : String) (args : List String) : Option Result :=
  match name with
  | "true" => some {}
  | "false" => some { ending := .status 1 }
  | "echo" => some (echo args)
  | "printf" => some { output := String.ofList (unescape (args.headD "").toList) }
  | "pwd" => some { output := directory ++ "\n" }
  | "ls" => some { ending := .status (if args.all fun a => a = "." || a.startsWith "-" then 0 else 2) }
  | "cat" => some { ending := .status (if args.isEmpty then 0 else 1) }
  | _ => none

/-! ### The shell -/

/-- The state of a shell: what was printed, the status of the last command, and how the shell ended. -/
structure State where
  output : String := ""
  status : Nat := 0
  ended : Option Ending := none
  deriving DecidableEq, Repr

/-- The words of a command, with the last status put in. -/
def State.expand (s : State) (words : List String) : List String :=
  words.map fun w => if w = "$?" then Text.decimal s.status else w

/-- Runs one command. -/
def State.run (directory : String) (s : State) (c : Simple) : State :=
  let skipped :=
    match c.connector with
    | .always => false
    | .afterSuccess => s.status != 0
    | .afterFailure => s.status == 0
  if s.ended.isSome || skipped then s
  else
    match s.expand c.words with
    | ":" :: _ => { s with status := 0 }
    | "exit" :: args =>
      let status := ((args.head?.bind fun n => Text.natOf? 10 n.toList).getD s.status) % 256
      { s with status, ended := some (.status status) }
    | "kill" :: args => { s with ended := some (killSelf args) }
    | name :: args =>
      match basic? directory name args with
      | some r =>
        { s with
          output := if c.printed then s.output ++ r.output else s.output
          status := r.ending.code }
      | none => { s with status := 127 }
    | [] => s

def runLine (directory line : String) : Result :=
  let s := (commandsOfLine line).foldl (State.run directory) {}
  { output := s.output, ending := s.ended.getD (.status s.status) }

/-! ### The host -/

/-- The directories that hold the commands. -/
def commandDirectories : List String := ["/bin", "/usr/bin"]

/-- The result of a command by its plain name. -/
def builtin? (directory : String) (name : String) (args : List String) : Option Result :=
  match name with
  | "sh" =>
    match args with
    | "-c" :: line :: _ => some (runLine directory line)
    | ["-c"] => some { ending := .status 2 }
    | _ => some {}
  | _ => basic? directory name args

/-- Runs a command in a directory: what it printed, and why it failed. -/
def runCommand (directory : String) (c : Command) : String × Option Failure :=
  let finish := fun (r : Result) => (r.output, r.ending.failure?)
  if c.name = "" then ("", some (.other "exec: no command"))
  else if c.name.toList.contains '/' then
    let known := if commandDirectories.contains (Files.parent c.name) then
      builtin? directory (Files.lastPart c.name) c.args else none
    match known with
    | some r => finish r
    | none => ("", some (.within ("fork/exec " ++ c.name) (.other "no such file or directory")))
  else
    match builtin? directory c.name c.args with
    | some r => finish r
    | none =>
      ("", some (.within ("exec: " ++ Text.quoted c.name)
        (.other "executable file not found in $PATH")))

end ServiceCompiler.Shell
