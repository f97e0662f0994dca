import ServiceCompiler.Settings.ImportPath
import ServiceCompiler.Settings.Value

namespace ServiceCompiler

/-!
# Generation settings

The settings under which a service is generated, their defaults, the options that change them, and
the check that a run has to pass.
-/

/-- The settings of a generation run. -/
structure Settings where
  /-- The path of the generated module. -/
  modulePath : String := "app"
  /-- The comment at the top of every generated source file. -/
  header : String := "Code generated by essence. DO NOT EDIT."
  /-- The cost of hashing passwords. -/
  bcryptCost : Int := 10
  /-- The language version of the generated module. -/
  goVersion : String := "1.24"
  /-- How many artifacts may be rendered or written at once. -/
  workers : Int := 1
  /-- Whether the directory of views is left out. -/
  noViews : Bool := false
  deriving DecidableEq, Repr

/-- A setting that cannot be used, with the offending value where there is one. -/
structure SettingsError where
  option : String
  value : OptionValue := .none
  message : String
  deriving Repr

def SettingsError.text (e : SettingsError) : String :=
  "essence: config error for " ++ Text.quoted e.option
    ++ (match e.value with
      | .none => ""
      | value => " (value: " ++ value.shown ++ ")")
    ++ ": " ++ e.message

namespace Settings

/-- The least hashing cost. -/
def minCost : Int := 4

/-- The greatest hashing cost. -/
def maxCost : Int := 31

/-- Checks the settings; the module path comes first, then the cost, then the workers. -/
def check (s : Settings) : Except SettingsError Unit := do
  match ImportPath.check s.modulePath with
  | .ok () => pure ()
  | .error e =>
    throw {
      option := "Module", value := .text s.modulePath
      message := "malformed import path " ++ Text.quoted s.modulePath ++ ": " ++ e.message }
  if s.bcryptCost < minCost ∨ s.bcryptCost > maxCost then
    throw {
      option := "BcryptCost", value := .number s.bcryptCost
      message := "must be between " ++ Text.decimalInt minCost ++ " and " ++ Text.decimalInt maxCost }
  if s.workers < 1 then
    throw {
      option := "Workers", value := .number s.workers, message := "must be positive" }

def packagePath (s : Settings) (package : String) : String := s.modulePath ++ "/" ++ package

/-! ### Options -/

/-- A change of the settings. -/
inductive Change where
  | modulePath (path : String)
  | header (text : String)
  | bcryptCost (cost : Int)
  | goVersion (version : String)
  | workers (count : Int)
  | withoutViews
  /-- All settings at once; none given is an error. -/
  | all (settings : Option Settings)
  deriving DecidableEq, Repr

/-- The settings after a change.  A number of workers below one changes nothing. -/
def apply (s : Settings) : Change → Except SettingsError Settings
  | .modulePath path =>
    if path = "" then
      .error { option := "Module", message := "module cannot be empty" }
    else .ok { s with modulePath := path }
  | .header text => .ok { s with header := text }
  | .bcryptCost cost => .ok { s with bcryptCost := cost }
  | .goVersion version =>
    if version = "" then
      .error { option := "GoVersion", message := "go version cannot be empty" }
    else .ok { s with goVersion := version }
  | .workers count => .ok (if count > 0 then { s with workers := count } else s)
  | .withoutViews => .ok { s with noViews := true }
  | .all none => .error { option := "Config", message := "config cannot be nil" }
  | .all (some settings) => .ok settings

/-- The default settings after a list of changes, checked. -/
def ofChanges (changes : List Change) : Except SettingsError Settings := do
  let s ← changes.foldlM apply {}
  s.check
  return s

end Settings

end ServiceCompiler
