import ServiceCompiler.Files.Path

namespace ServiceCompiler

open Files

/-!
# File trees

A tree of files and directories, with a working directory from which paths are followed.

* `FileTree.get?`, `FileTree.put` look at and change what stands at an address.
* `FileTree.read`, `stat`, `write`, `makeDirectory` follow a path and tell why they cannot.
* `FileTree.makeDirectories` makes a directory and those above it; what it made before a failure
  stays.
-/

/-- What stands at a place of a file tree. -/
inductive FileEntry where
  | directory
  | file (content : String)
  deriving DecidableEq, Repr

/-- A place in a file tree: the names on the way down from the root. -/
abbrev FileAddress := List String

/-- A file tree. -/
structure FileTree where
  /-- The path of the working directory. -/
  workingDirectory : String
  /-- The path of the user's own directory. -/
  userDirectory : String := "/root"
  /-- What stands at each address, the working directory and those above it apart. -/
  entries : List (FileAddress × FileEntry) := []
  deriving Repr

/-! ### Failures -/

/-- What was tried with a path. -/
inductive FileOperation where
  | openFile
  | readFile
  | status
  | newDirectory
  deriving DecidableEq, Repr

/-- Why it could not be done. -/
inductive FileProblem where
  | missing
  | notDirectory
  | isDirectory
  | nameTooLong
  | invalid
  deriving DecidableEq, Repr

/-- A failed operation on a path. -/
structure FileError where
  operation : FileOperation
  path : String
  problem : FileProblem
  deriving DecidableEq, Repr

def FileOperation.name : FileOperation → String
  | .openFile => "open"
  | .readFile => "read"
  | .status => "stat"
  | .newDirectory => "mkdir"

def FileProblem.text : FileProblem → String
  | .missing => "no such file or directory"
  | .notDirectory => "not a directory"
  | .isDirectory => "is a directory"
  | .nameTooLong => "file name too long"
  | .invalid => "invalid argument"

def FileError.text (e : FileError) : String :=
  e.operation.name ++ " " ++ e.path ++ ": " ++ e.problem.text

namespace FileTree

/-! ### Addresses -/

def home (t : FileTree) : FileAddress := (parts t.workingDirectory).filter (· ≠ "")

/-- What stands at an address. -/
def get? (t : FileTree) (a : FileAddress) : Option FileEntry :=
  if a.isPrefixOf t.home then some .directory else t.entries.lookup a

def put (t : FileTree) (a : FileAddress) (e : FileEntry) : FileTree :=
  { t with entries := (a, e) :: t.entries.filter (·.1 != a) }

/-- The greatest number of octets of a name. -/
def maxNameSize : Nat := 255

/-- The greatest number of octets of a path. -/
def maxPathSize : Nat := 4095

/-- The address reached from a directory along the parts of a path.  Every place on the way has to be
    a directory; nothing has to stand at the end. -/
def walk (t : FileTree) : FileAddress → List String → Except FileProblem FileAddress
  | a, [] => .ok a
  | a, part :: rest =>
    match t.get? a with
    | none => .error .missing
    | some (.file _) => .error .notDirectory
    | some .directory =>
      if part = "" ∨ part = "." then t.walk a rest
      else if part = ".." then t.walk a.dropLast rest
      else if Text.octetCount part > maxNameSize then .error .nameTooLong
      else t.walk (a ++ [part]) rest

/-- Where a path starts, and the parts to follow from there. -/
def start (t : FileTree) (path : String) : FileAddress × List String :=
  let below := Text.stripLead? (t.workingDirectory ++ "/").toList path.toList
  if path = t.workingDirectory then (t.home, [])
  else
    match below with
    | some rest => (t.home, parts (String.ofList rest))
    | none => if isRooted path then ([], parts path) else (t.home, parts path)

def resolve (t : FileTree) (path : String) : Except FileProblem FileAddress :=
  if path.toList.contains '\x00' then .error .invalid
  else if path = "" then .error .missing
  else if Text.octetCount path > maxPathSize then .error .nameTooLong
  else
    let (a, ps) := t.start path
    t.walk a ps

def absolute (t : FileTree) (path : String) : String :=
  if isRooted path then clean path else join t.workingDirectory path

/-! ### Operations -/

/-- What a path names. -/
def stat (t : FileTree) (path : String) : Except FileError FileEntry :=
  match t.resolve path with
  | .error problem => .error ⟨.status, path, problem⟩
  | .ok a =>
    match t.get? a with
    | none => .error ⟨.status, path, .missing⟩
    | some entry => .ok entry

/-- The content of a file. -/
def read (t : FileTree) (path : String) : Except FileError String :=
  match t.resolve path with
  | .error problem => .error ⟨.openFile, path, problem⟩
  | .ok a =>
    match t.get? a with
    | none => .error ⟨.openFile, path, .missing⟩
    | some .directory => .error ⟨.readFile, path, .isDirectory⟩
    | some (.file content) => .ok content

/-- The tree after writing a file, which replaces a file of that name. -/
def write (t : FileTree) (path content : String) : Except FileError FileTree :=
  match t.resolve path with
  | .error problem => .error ⟨.openFile, path, problem⟩
  | .ok a =>
    match t.get? a with
    | some .directory => .error ⟨.openFile, path, .isDirectory⟩
    | _ => .ok (t.put a (.file content))

/-- The tree with a directory, which may be there already. -/
def makeDirectory (t : FileTree) (path : String) : Except FileError FileTree :=
  match t.resolve path with
  | .error problem => .error ⟨.newDirectory, path, problem⟩
  | .ok a =>
    match t.get? a with
    | none => .ok (t.put a .directory)
    | some .directory => .ok t
    | some (.file _) => .error ⟨.newDirectory, path, .notDirectory⟩

/-- Makes directories one after the other, up to the first that cannot be made. -/
def makeEach (t : FileTree) : List String → Except FileError Unit × FileTree
  | [] => (.ok (), t)
  | path :: rest =>
    match t.makeDirectory path with
    | .error e => (.error e, t)
    | .ok t' => t'.makeEach rest

/-- Makes a directory and those above it. -/
def makeDirectories (t : FileTree) (path : String) : Except FileError Unit × FileTree :=
  t.makeEach (leads path)

/-- What lies below an address, by path from there, a directory's path ending in a slash; in the
    bytewise order of the paths. -/
def listing (t : FileTree) (a : FileAddress) : List (String × FileEntry) :=
  let shown := fun (entry : FileAddress × FileEntry) =>
    if a.isPrefixOf entry.1 && entry.1.length > a.length then
      let path := "/".intercalate (entry.1.drop a.length)
      some (if entry.2 = .directory then path ++ "/" else path, entry.2)
    else none
  (t.entries.filterMap shown).mergeSort fun x y => Text.before x.1 y.1

/-! ### Small laws -/

@[simp] theorem home_put (t : FileTree) (a : FileAddress) (e : FileEntry) : (t.put a e).home = t.home :=
  rfl

/-- An entry put at an address outside the way to the working directory is found there. -/
theorem get?_put_self (t : FileTree) (a : FileAddress) (e : FileEntry)
    (h : a.isPrefixOf t.home = false) : (t.put a e).get? a = some e := by
  unfold get?
  rw [home_put, h]
  simp [put]

/-- Putting an entry changes no other address. -/
theorem get?_put_of_ne (t : FileTree) {a b : FileAddress} (e : FileEntry) (h : b ≠ a) :
    (t.put a e).get? b = t.get? b := by
  have hlookup : ∀ es : List (FileAddress × FileEntry),
      (es.filter (·.1 != a)).lookup b = es.lookup b := by
    intro es
    induction es with
    | nil => rfl
    | cons p es ih =>
      obtain ⟨k, v⟩ := p
      by_cases hk : k = a
      · subst hk
        have hb : (b == k) = false := by simpa using h
        simp [List.lookup_cons, ih, hb]
      · simp only [bne_iff_ne, ne_eq, hk, not_false_eq_true, List.filter_cons_of_pos, List.lookup_cons, ih]
  have hb : (b == a) = false := by simpa using h
  unfold get?
  rw [home_put]
  simp [put, List.lookup_cons, hb, hlookup]

end FileTree

end ServiceCompiler
