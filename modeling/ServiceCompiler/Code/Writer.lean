import ServiceCompiler.Code.Artifact
import ServiceCompiler.Files.Action

namespace ServiceCompiler

/-!
# Writing artifacts

Artifacts are written below an output directory, one after the other, each replacing the file of its
name.  The first failure ends the writing; what was written before stays.
-/

/-- Writes artifacts below a directory and keeps count. -/
structure Writer where
  directory : String
  noViews : Bool := false
  /-- How many files were written. -/
  files : Nat := 0
  /-- How many octets they have. -/
  octets : Nat := 0
  deriving DecidableEq, Repr

namespace Writer

def ofSettings (directory : String) (settings : Settings) : Writer :=
  { directory, noViews := settings.noViews }

/-- The directories that are there whatever is written. -/
def layout (w : Writer) : List String :=
  w.directory :: (["routes", "public"] ++ if w.noViews then [] else ["views"]).map
    (Files.join w.directory)

def prepare (w : Writer) : FileAction Unit :=
  w.layout.forM fun directory =>
    (FileAction.makeDirectories directory).labeled fun f =>
      .generation directory "write" "create directory" (some f)

def writeArtifact (w : Writer) (a : Artifact) : FileAction Writer := do
  let path := Files.join w.directory a.path
  (FileAction.makeDirectories (Files.parent path)).labeled fun f =>
    .generation a.path "write" "create directory" (some f)
  (FileAction.write path a.content).labeled fun f => .generation a.path "write" "" (some f)
  return { w with files := w.files + 1, octets := w.octets + Text.octetCount a.content }

/-- Writes artifacts up to the first that fails, and tells what was counted and what failed. -/
def writeEach (w : Writer) : List Artifact → FileTree → (Writer × Option Failure) × FileTree
  | [], t => ((w, none), t)
  | a :: rest, t =>
    match w.writeArtifact a t with
    | (.error f, t') => ((w, some f), t')
    | (.ok w', t') => w'.writeEach rest t'

/-- Makes the layout and writes the artifacts.  A run that was stopped before fails at its first
    artifact. -/
def write (w : Writer) (stopped : Bool) (artifacts : List Artifact) (t : FileTree) :
    (Writer × Option Failure) × FileTree :=
  match w.prepare t with
  | (.error f, t') => ((w, some f), t')
  | (.ok (), t') =>
    if stopped && !artifacts.isEmpty then ((w, some .canceled), t') else w.writeEach artifacts t'

end Writer

end ServiceCompiler
