import ServiceCompiler.Files.Action
import ServiceCompiler.Settings.Document

namespace ServiceCompiler.Settings

/-!
# The settings file

A settings file that is not there stands for the defaults; saving makes the directories that the file
needs.
-/

def load (t : FileTree) (path : String) : Except Failure Settings :=
  match t.read path with
  | .error e =>
    if e.problem = .missing then .ok {} else .error (.within "read essence config" (.file e))
  | .ok text => ofText text

/-- Saves settings. -/
def save (s : Settings) (path : String) : FileAction Unit := do
  let directory := Files.parent path
  if directory ≠ "." then
    (FileAction.makeDirectories directory).labeled (.within "create directory")
  FileAction.write path s.toText

end ServiceCompiler.Settings
