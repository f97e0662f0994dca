import ServiceCompiler.Files.Tree
import ServiceCompiler.Settings.Basic
import ServiceCompiler.Sql.Engine

namespace ServiceCompiler

/-!
# Failures

Everything that can go wrong, as a cause under the labels of the places it passed through.

* `Failure.text` is the complete text of a failure.
* `Failure.causes` lists a failure and all causes below it, outermost first.
* `Failure.kind` is the class of a failure: the first class that it belongs to.
-/

/-- A failure. -/
inductive Failure where
  /-- The command line cannot be understood. -/
  | usage (message : String)
  /-- A directive has a value that is not supported. -/
  | directive (e : DirectiveError)
  /-- A setting cannot be used. -/
  | settings (e : SettingsError)
  /-- An artifact could not be produced. -/
  | generation (artifact phase message : String) (cause : Option Failure)
  /-- A table could not be migrated. -/
  | migration (table : String) (cause : Failure)
  /-- A step of setting up the client project failed. -/
  | step (name : String) (cause : Failure)
  /-- A document has values of the wrong types. -/
  | documentTypes (errors : List String)
  /-- A document cannot be read. -/
  | documentSyntax (message : String)
  /-- A package description is not what it should be. -/
  | packageSyntax (message : String)
  /-- A file or directory cannot be used. -/
  | file (e : FileError)
  /-- The run was stopped. -/
  | canceled
  /-- A database refused a statement. -/
  | database (engine : Engine) (number : Int) (message : String)
  /-- Any other failure. -/
  | other (message : String)
  /-- A failure that the program does not survive. -/
  | crash
  /-- A failure under a label. -/
  | within (label : String) (cause : Failure)
  /-- Two failures at once. -/
  | both (first second : Failure)
  deriving Repr

/-- The classes of failures. -/
inductive FailureKind where
  | usage
  | directive
  | settings
  | generation
  | migration
  | step
  | documentTypes
  | documentSyntax
  | packageSyntax
  | canceled
  | other
  | crash
  deriving DecidableEq, Repr

namespace Failure

/-- A failure under a label; one that the program does not survive gets none. -/
def under (label : String) : Failure → Failure
  | .crash => .crash
  | f => .within label f

/-- The text after a label. -/
def labeled (label text : String) : String := label ++ ": " ++ text

/-- A part of a message with the words before it; nothing when it is empty. -/
def part (lead text : String) : String := if text = "" then "" else lead ++ text

def text : Failure → String
  | .usage message => message
  | .directive e => e.message
  | .settings e => e.text
  | .generation artifact phase message cause =>
    "essence: generation error" ++ part " during " phase ++ part " of " artifact
      ++ part ": " message
      ++ (match cause with
        | none => ""
        | some c => ": " ++ c.text)
  | .migration table cause => "dialect/sql: migrate table " ++ table ++ ": " ++ cause.text
  | .step name cause => "scaffold: " ++ name ++ ": " ++ cause.text
  | .documentTypes errors => "yaml: unmarshal errors:\n  " ++ "\n  ".intercalate errors
  | .documentSyntax message => "yaml: " ++ message
  | .packageSyntax message => message
  | .file e => e.text
  | .canceled => "context canceled"
  | .database .mysql number message => labeled ("Error " ++ Text.decimalInt number) message
  | .database .mssql _ message => labeled "mssql" message
  | .other message => message
  | .crash => ""
  | .within label cause => labeled label cause.text
  | .both first second => first.text ++ "\n" ++ second.text

/-- A failure and all causes below it, outermost first. -/
def causes : Failure → List Failure
  | .generation artifact phase message cause =>
    .generation artifact phase message cause ::
      (match cause with
      | none => []
      | some c => c.causes)
  | .migration table cause => .migration table cause :: cause.causes
  | .step name cause => .step name cause :: cause.causes
  | .within label cause => .within label cause :: cause.causes
  | .both first second => .both first second :: (first.causes ++ second.causes)
  | f => [f]

/-- A failure and the causes below it, as far as each has a single cause. -/
def lineage : Failure → List Failure
  | .generation artifact phase message cause =>
    .generation artifact phase message cause ::
      (match cause with
      | none => []
      | some c => c.lineage)
  | .migration table cause => .migration table cause :: cause.lineage
  | .step name cause => .step name cause :: cause.lineage
  | .within label cause => .within label cause :: cause.lineage
  | f => [f]

/-- The class that a failure belongs to by itself, if there is one. -/
def ownKind : Failure → Option FailureKind
  | .usage _ => some .usage
  | .directive _ => some .directive
  | .settings _ => some .settings
  | .generation .. => some .generation
  | .migration .. => some .migration
  | .step .. => some .step
  | .documentTypes _ => some .documentTypes
  | .packageSyntax _ => some .packageSyntax
  | .canceled => some .canceled
  | .crash => some .crash
  | .documentSyntax _ => none
  | .file _ => none
  | .database .. => none
  | .other _ => none
  | .within .. => none
  | .both .. => none

/-- The classes in the order in which they are looked for. -/
def kinds : List FailureKind :=
  [.crash, .usage, .directive, .settings, .generation, .migration, .step, .documentTypes,
   .documentSyntax, .packageSyntax, .canceled]

/-- The first cause of a class. -/
def cause? (f : Failure) (kind : FailureKind) : Option Failure :=
  f.causes.find? (·.ownKind == some kind)

/-- The mark of a document that cannot be read, in the text of a failure. -/
def documentMark : String := "yaml: "

/-- Whether a failure belongs to a class: by one of its causes, or, for documents that cannot be
    read, by its text. -/
def isOf (f : Failure) : FailureKind → Bool
  | .documentSyntax => Text.contains documentMark.toList f.text.toList
  | k => (f.cause? k).isSome

/-- The class of a failure. -/
def kind (f : Failure) : FailureKind := (kinds.find? f.isOf).getD .other

end Failure

end ServiceCompiler
