import ServiceCompiler.Code.Writer
import ServiceCompiler.Directive.Build
import ServiceCompiler.Service.Document

namespace ServiceCompiler

/-!
# Compiling

From a service description to the artifacts of the service, and from a file to a tree of files.
-/

/-- The outcome of a compilation. -/
structure Compilation where
  service : Service
  warnings : List Warning
  settings : Settings
  groups : List NamedGroup
  artifacts : List Artifact
  deriving Repr

namespace Compilation

/-- Generates the service of a build.  The settings are checked before the database is looked at. -/
def ofBuild (changes : List Settings.Change) (stopped : Bool) (b : Build) :
    Except Failure Compilation := do
  let settings ← (Settings.ofChanges changes).mapError .settings
  let generator ← (Generator.ofService settings b.service).mapError .directive
  let artifacts ← (generator.artifacts stopped).mapError (.under "compiler")
  return {
    service := b.service, warnings := b.warnings, settings, groups := generator.groups, artifacts }

def ofSource (changes : List Settings.Change) (stopped : Bool) (src : String) :
    Except Failure Compilation := do
  let b ← (Build.ofSource src).mapError .directive
  ofBuild changes stopped b

end Compilation

/-! ### Files -/

/-- The build of a file, which holds a written service description or directives. -/
def Build.ofFile (t : FileTree) (path : String) : Except Failure Build := do
  let text ← (t.read path).mapError fun e => .within "load" (.within "read source" (.file e))
  let label := fun (f : Failure) => Failure.under "load" (.under path f)
  if isDocumentPath path then
    let service ← (Service.unmarshal text).mapError label
    return { service, warnings := [] }
  else (Build.ofSource text).mapError fun e => label (.directive e)

namespace Compilation

def ofFile (changes : List Settings.Change) (stopped : Bool) (t : FileTree) (path : String) :
    Except Failure Compilation := do
  let b ← Build.ofFile t path
  ofBuild changes stopped b

/-- Writes the artifacts below a directory; gives the count of what was written. -/
def write (c : Compilation) (stopped : Bool) (directory : String) : FileAction Writer := fun t =>
  match (Writer.ofSettings directory c.settings).write stopped c.artifacts t with
  | ((_, some f), t') => (.error f, t')
  | ((w, none), t') => (.ok w, t')

end Compilation

end ServiceCompiler
