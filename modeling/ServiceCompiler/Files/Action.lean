import ServiceCompiler.Failure

namespace ServiceCompiler

/-!
# Actions on files

An action may fail, and what it changed before it failed stays changed.
-/

abbrev FileAction (α : Type) := ExceptT Failure (StateM FileTree) α

namespace FileAction

def look {α : Type} (operation : FileTree → Except FileError α) : FileAction α := fun t =>
  ((operation t).mapError .file, t)

/-- The action of an operation that gives a new tree. -/
def change (operation : FileTree → Except FileError FileTree) : FileAction Unit := fun t =>
  match operation t with
  | .error e => (.error (.file e), t)
  | .ok t' => (.ok (), t')

/-- The content of a file. -/
def read (path : String) : FileAction String := look (·.read path)

def write (path content : String) : FileAction Unit := change (·.write path content)

/-- Makes a directory and those above it. -/
def makeDirectories (path : String) : FileAction Unit := fun t =>
  let (outcome, t') := t.makeDirectories path
  (outcome.mapError .file, t')

/-- The action with its failure told in other words. -/
def labeled {α : Type} (label : Failure → Failure) (action : FileAction α) : FileAction α := fun t =>
  let (outcome, t') := action t
  (outcome.mapError label, t')

end FileAction

end ServiceCompiler
