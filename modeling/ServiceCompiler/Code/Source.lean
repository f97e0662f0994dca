import ServiceCompiler.Code.DocComment
import ServiceCompiler.Code.Header
import ServiceCompiler.Code.Lines
import ServiceCompiler.Code.Package

namespace ServiceCompiler.Code

/-!
# Source files

A generated file is a list of declarations with the packages they use.  From that follow the imports
and the layout: declarations are set apart by an empty line where one has a comment or where their
kinds differ.
-/

inductive DeclarationKind where
  | function
  | variable
  | constant
  | type
  deriving DecidableEq, Repr

/-- One declaration of a file.  A comment of several lines is given line by line. -/
structure Declaration where
  kind : DeclarationKind
  doc : List String := []
  uses : List Package
  lines : List String
  deriving DecidableEq, Repr

/-- A generated file. -/
structure SourceFile where
  package : String
  declarations : List Declaration
  /-- Packages that are imported for their effect only. -/
  effects : List Package := []
  deriving DecidableEq, Repr

namespace SourceFile

def imports (f : SourceFile) : List Package :=
  (f.effects ++ f.declarations.flatMap (·.uses)).eraseDups

/-- The lines that import packages, in the order of their paths. -/
def importLines (settings : Settings) (packages : List Package) : List String :=
  let sorted := packages.mergeSort fun a b => Text.before (a.path settings) (b.path settings)
  match sorted with
  | [] => []
  | [p] => ["import " ++ p.importSpec settings, ""]
  | _ => "import (" :: indent (sorted.map (·.importSpec settings)) ++ [")", ""]

def declarationText? (d : Declaration) : Option String := do
  let doc ← d.doc.mapM docComment?
  return String.join doc ++ "\n".intercalate d.lines

/-- The lines of the declarations; `previous` is the kind of the one before. -/
def bodyLines? : Option DeclarationKind → List Declaration → Option (List String)
  | _, [] => some []
  | previous, d :: rest => do
    let text ← declarationText? d
    let others ← bodyLines? (some d.kind) rest
    let gap := previous.isSome && (previous != some d.kind || !d.doc.isEmpty)
    return (if gap then [""] else []) ++ text :: others

/-- The text of a file; `none` when the formatter refuses a comment. -/
def render? (settings : Settings) (f : SourceFile) : Option String := do
  let header ← header? settings.header
  let body ← bodyLines? none f.declarations
  let lines :=
    ["package " ++ f.package, ""] ++ importLines settings f.imports ++ body
  return header ++ "\n".intercalate lines ++ "\n"

end SourceFile

/-! ### Frequent pieces of code -/

/-- A function with the comment lines above it. -/
def function (signature : String) (doc : List String) (uses : List Package) (body : List String) :
    Declaration where
  kind := .function
  doc := doc
  uses := uses
  lines := block ("func " ++ signature) body

/-- A string literal. -/
def lit (s : String) : String := Text.quoted s

/-- A reply with a status and a body. -/
def respond (status body : String) : String := call "c.JSON" ["http." ++ status, body]

/-- A reply body with one entry. -/
def reply (key value : String) : String := braced "gin.H" (lit key ++ ": " ++ value)

/-- An error reply followed by the end of the handler. -/
def respondError (status message : String) : List String :=
  [respond status (reply "error" (lit message)), "return"]

/-- Hands an error to the error handler and ends. -/
def passError : List String := ["c.Error(err)", "return"]

/-- What to do on an error. -/
def onError (body : List String) : List String := block "if err != nil" body

/-- Runs `init`, which sets an error, and says what to do on one. -/
def ifFails (init : String) (body : List String) : List String :=
  block ("if " ++ init ++ "; err != nil") body

end ServiceCompiler.Code
