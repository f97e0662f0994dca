import ServiceCompiler.CommandLine.Usage
import ServiceCompiler.Document.Scalar
import ServiceCompiler.Text.LetterCase

namespace ServiceCompiler.CommandLine

/-!
# Reading command lines

A command line is read from left to right.  The first argument may name a command; otherwise the
command is `generate`, whose flags may also stand before it.

* `Given` is a flag with its value, `Parsed` what was read so far.
* `parse` reads a whole command line, as far as it can be told without the defaults.
-/

inductive FlagValue where
  | switch (on : Bool)
  | text (s : String)
  | number (n : Int)
  deriving DecidableEq, Repr

/-- A flag that was given; flags of a command are its own, whatever they are named. -/
structure Given where
  owner : Option CommandName
  flag : String
  value : FlagValue
  deriving DecidableEq, Repr

/-- What was read of a command line. -/
structure Parsed where
  command : Option CommandName := none
  arguments : List String := []
  flags : List Given := []
  deriving DecidableEq, Repr

/-! ### Values -/

/-- An integer of 64 bits, in the base that its first characters tell. -/
def integer? (s : String) : Option Int := do
  let (negative, digits) := Document.Scalar.sign s.toList
  let isHex := match digits with
    | '0' :: x :: _ => x == 'x' || x == 'X'
    | _ => false
  let (marked, body) := match digits with
    | '0' :: b :: rest => if "bBoOxX".toList.contains b then (true, rest) else (false, digits)
    | _ => (false, digits)
  let isDigit := fun c => if isHex then (Text.digitValue? c).isSome else Text.isDigit c
  if digits.contains '_' && !Document.Scalar.separatesDigits isDigit marked false body then none
  else
    let n ← Document.Scalar.magnitude? (digits.filter (· != '_'))
    Document.Scalar.signed? negative n

/-- A path as the program uses it: a single dash stands for itself, and a tilde for the user's own
    directory. -/
def expand (t : FileTree) (path : String) : String :=
  if path = "-" || Files.isRooted path then path
  else
    match path.toList with
    | '~' :: '/' :: rest => Files.join t.userDirectory (String.ofList rest)
    | _ => t.absolute path

def switch? (value : String) : Option Bool :=
  if ["true", "1", "yes"].contains value then some true
  else if ["false", "0", "no"].contains value then some false
  else none

/-- The value of a flag that stands in a text. -/
def Flag.read (t : FileTree) (f : Flag) (value : String) : Except UsageError FlagValue :=
  match f.kind with
  | .switch =>
    let lowered := Text.lower value
    match switch? lowered with
    | some on => .ok (.switch on)
    | none => .error (.notSwitch f lowered)
  | .text => .ok (.text value)
  | .path => .ok (.text (expand t value))
  | .number =>
    match integer? value with
    | some n => .ok (.number n)
    | none => .error (.notNumber f value)

/-- What stands in a word where a value was expected, when it is none. -/
def found? (word : String) : Option Found :=
  match word.toList with
  | '-' :: '-' :: _ => some (.longFlag word)
  | '-' :: _ :: _ => some (.shortFlag word)
  | _ => none

/-- The value of a flag: what is attached to it, nothing for a switch, or the next word.  Tells also
    whether that word was used. -/
def Flag.take (t : FileTree) (f : Flag) (attached : Option String) (rest : List String) :
    Except UsageError (FlagValue × Bool) := do
  match attached, f.kind, rest with
  | some value, _, _ => return (← f.read t value, false)
  | none, .switch, _ => return (.switch true, false)
  | none, _, [] => throw (.missingValue f .endOfLine)
  | none, _, word :: _ =>
    match found? word with
    | some found => throw (.missingValue f found)
    | none => return (← f.read t word, true)

/-! ### Words -/

namespace Parsed

/-- The flags that may be given, each with its owner. -/
def allowed (p : Parsed) : List (Option CommandName × Flag) :=
  let command := p.command.getD .generate
  commonFlags.map (none, ·) ++ command.flags.map (some command, ·)

def flag (p : Parsed) (form : String) : Except UsageError (Option CommandName × Flag) :=
  match p.allowed.find? fun f => f.2.forms.contains form with
  | some f => .ok f
  | none => .error (.unknownFlag form (similar form (p.allowed.flatMap fun f => f.2.forms)))

/-- Adds a flag. -/
def give (p : Parsed) (owner : Option CommandName) (f : Flag) (value : FlagValue) : Parsed :=
  { p with flags := p.flags ++ [{ owner, flag := f.name, value }] }

/-- Reads a long flag, with a value after an equals sign if it has one. -/
def long (t : FileTree) (p : Parsed) (body : List Char) (rest : List String) :
    Except UsageError (Parsed × Bool) := do
  let (name, attached) := match Text.cutAt? '=' body with
    | some (name, value) => (name, some (String.ofList value))
    | none => (body, none)
  let (owner, f) ← p.flag ("--" ++ String.ofList name)
  let (value, used) ← f.take t attached rest
  return (p.give owner f value, used)

/-- The form of a short flag; a character of several octets cannot be one. -/
def shortForm (c : Char) : String :=
  "-" ++ String.singleton (if c.toNat < 0x80 then c else '�')

/-- Reads short flags: switches may stand together, and what stands after another flag is its value. -/
def short (t : FileTree) (p : Parsed) (rest : List String) :
    List Char → Except UsageError (Parsed × Bool)
  | [] => .ok (p, false)
  | c :: tail => do
    let (owner, f) ← p.flag (shortForm c)
    if f.kind = .switch then short t (p.give owner f (.switch true)) rest tail
    else
      let attached := if tail.isEmpty then none else some (String.ofList tail)
      let (value, used) ← f.take t attached rest
      return (p.give owner f value, used)

/-- Reads an argument of a command. -/
def argument (t : FileTree) (p : Parsed) (c : CommandName) (word : String) :
    Except UsageError Parsed := do
  match c.arguments.drop p.arguments.length with
  | [] => throw (.unexpectedArgument word)
  | a :: _ =>
    let path := expand t word
    if a.mustExist && path != "-" then
      match t.stat path with
      | .error e => throw (.file a e)
      | .ok .directory => throw (.directory a path)
      | .ok (.file _) => pure ()
    return { p with command := some c, arguments := p.arguments ++ [path] }

/-- Reads a word that is no flag. -/
def word (t : FileTree) (p : Parsed) (w : String) : Except UsageError Parsed :=
  match p.command with
  | some c => p.argument t c w
  | none =>
    match CommandName.ofName? w with
    | some c => .ok { p with command := some c }
    | none => p.argument t .generate w

end Parsed

/-! ### Command lines -/

/-- Reads words; `plain` tells that there are no more flags. -/
def parseWords (t : FileTree) (p : Parsed) (plain : Bool) : List String → Except UsageError Parsed
  | [] => .ok p
  | w :: rest =>
    let go := fun (outcome : Except UsageError (Parsed × Bool)) =>
      match outcome with
      | .error e => .error e
      | .ok (p', used) =>
        match used, rest with
        | true, _ :: rest' => parseWords t p' plain rest'
        | _, rest => parseWords t p' plain rest
    if plain then go ((p.word t w).map (·, false))
    else
      match w.toList with
      | ['-', '-'] => parseWords t p true rest
      | '-' :: '-' :: body => go (p.long t body rest)
      | '-' :: c :: tail => go (p.short t rest (c :: tail))
      | _ => go ((p.word t w).map (·, false))
termination_by words => words.length

/-- Reads a command line. -/
def parse (t : FileTree) (words : List String) : Except UsageError Parsed :=
  parseWords t {} false words

end ServiceCompiler.CommandLine
