import ServiceCompiler.Directive.Line
import ServiceCompiler.Directive.Rule

namespace ServiceCompiler

/-!
# Building a service from its source

The lines of a source are folded over the default service.  A line that cannot be read changes
nothing and leaves a warning; an unsupported value ends the whole build.
-/

/-! ### Warnings -/

/-- Why a line had no effect.  Kinds are numbered from outside; numbers without a meaning are kept. -/
inductive WarningKind where
  | unrecognized
  | malformed
  | unknown (code : Int)
  deriving DecidableEq, Repr

/-- The kind of a number. -/
def WarningKind.ofCode (code : Int) : WarningKind :=
  if code = 0 then .unrecognized else if code = 1 then .malformed else .unknown code

def WarningKind.name : WarningKind → String
  | .unrecognized => "unrecognized"
  | .malformed => "malformed"
  | .unknown code => "WarningKind(" ++ Text.decimalInt code ++ ")"

/-- A line that had no effect.  The directive is named when the line is malformed. -/
structure Warning where
  line : Line
  kind : WarningKind
  directive : String := ""
  deriving DecidableEq, Repr

def Warning.message (w : Warning) : String :=
  let place := "line " ++ Text.decimalInt w.line.number ++ ": "
  match w.kind with
  | .malformed => place ++ "malformed " ++ w.directive ++ " directive ignored: " ++ w.line.text
  | _ => place ++ "unrecognized line ignored: " ++ w.line.text

/-! ### Steps -/

/-- What one line does to a service: a changed service, or a warning about the line. -/
def Service.step (s : Service) (line : Line) : Except DirectiveError (Service × Option Warning) :=
  match Directive.read line.text with
  | .effective directive => .ok (directive.apply s, none)
  | .malformed rule => .ok (s, some { line, kind := .malformed, directive := rule })
  | .unrecognized => .ok (s, some { line, kind := .unrecognized })
  | .unsupported value => .error { value with line := line.number }

/-- A service under construction and the warnings so far. -/
structure Build where
  service : Service := {}
  warnings : List Warning := []
  deriving DecidableEq, Repr

/-- The build after one more line. -/
def Build.step (b : Build) (line : Line) : Except DirectiveError Build := do
  let (service, warning) ← b.service.step line
  return { service, warnings := b.warnings ++ warning.toList }

/-- The build of a list of lines, beginning with the default service. -/
def Build.ofLines (lines : List Line) : Except DirectiveError Build := lines.foldlM Build.step {}

def Build.ofSource (source : String) : Except DirectiveError Build :=
  Build.ofLines (Line.ofSource source)

end ServiceCompiler
