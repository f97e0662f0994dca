import ServiceCompiler.Proofs.Effect
import ServiceCompiler.Proofs.Files.Address

namespace ServiceCompiler

open Files

/-!
# What changes of a file tree keep

Most changes of a tree only add to it.  What may be lost is told by address and entry, and a file can still be read
when neither it nor a directory on the way to it is lost.

* `walk_cons_iff`, `resolve_eq_ok_iff` — when a path can be followed.
* `FileTree.Keeps` — a change after which everything is there but what may be lost.
* `read_of_keeps` — what can be read after such a change.
* `FileTree.Adds` — a change that makes directories where nothing stood, and is free at some places.
* `adds_makeEach`, `write_eq_ok_iff`, `read_of_write` — what the operations do.
* `FileTree.adding` — the effect of actions that make such changes.
-/

variable {path : String} {a : FileAddress} {t : FileTree}

namespace FileTree

/-! ### Following a path -/

/-- A walk goes on from a directory, with a name that is not too long. -/
theorem walk_cons_iff {b : FileAddress} {part : String} {rest : List String} :
    t.walk a (part :: rest) = .ok b ↔ t.get? a = some .directory ∧
      (IsName part → Text.octetCount part ≤ maxNameSize) ∧ t.walk (follow a part) rest = .ok b := by
  rw [walk, follow]
  rcases t.get? a with _ | _ | content
  · simp
  · by_cases hskip : part = "" ∨ part = "."
    · have hname : ¬ IsName part := fun h => hskip.elim h.1 h.2.1
      simp [hskip, hname]
    · by_cases hup : part = ".."
      · have hname : ¬ IsName ".." := fun h => h.2.2 rfl
        simp [hup, hname]
      · have hname : IsName part := ⟨fun h => hskip (.inl h), fun h => hskip (.inr h), hup⟩
        by_cases hsize : Text.octetCount part ≤ maxNameSize
        · simp [hskip, hup, hsize, Nat.not_lt.2 hsize]
        · simp [hskip, hup, hname, hsize, Nat.lt_of_not_le hsize]
  · simp

/-- The walk along a path ends where its parts lead. -/
theorem walk_eq_foldl {b : FileAddress} {ps : List String} (h : t.walk a ps = .ok b) : b = ps.foldl follow a := by
  induction ps generalizing a with
  | nil =>
    cases h
    rfl
  | cons part rest ih => exact ih (walk_cons_iff.1 h).2.2

/-- A path that can be followed in some tree. -/
def IsUsable (path : String) : Prop :=
  '\x00' ∉ path.toList ∧ path ≠ "" ∧ Text.octetCount path ≤ maxPathSize

theorem resolve_eq_ok_iff :
    t.resolve path = .ok a ↔ IsUsable path ∧ t.walk (t.start path).1 (t.start path).2 = .ok a := by
  rw [resolve, IsUsable]
  by_cases hzero : '\x00' ∈ path.toList
  · simp [hzero]
  · by_cases hempty : path = ""
    · simp [hempty]
    · by_cases hsize : Text.octetCount path ≤ maxPathSize
      · simp [hzero, hempty, hsize, Nat.not_lt.2 hsize]
      · simp [hzero, hempty, hsize, Nat.lt_of_not_le hsize]

theorem address_of_resolve (h : t.resolve path = .ok a) : a = t.address path :=
  walk_eq_foldl (resolve_eq_ok_iff.1 h).2

theorem resolve_cases (t : FileTree) (path : String) :
    (∃ problem, t.resolve path = .error problem) ∨ t.resolve path = .ok (t.address path) := by
  cases hresolve : t.resolve path with
  | error problem => exact .inl ⟨problem, rfl⟩
  | ok a => exact .inr (by rw [address_of_resolve hresolve])

theorem address_congr {t' : FileTree} (h : t'.workingDirectory = t.workingDirectory) (path : String) :
    t'.address path = t.address path := by
  rw [address, address, start_congr h]

theorem stat_eq_ok_iff {entry : FileEntry} :
    t.stat path = .ok entry ↔ t.resolve path = .ok (t.address path) ∧ t.get? (t.address path) = some entry := by
  rw [stat]
  rcases t.resolve_cases path with ⟨problem, hresolve⟩ | hresolve
  · simp [hresolve]
  · cases hentry : t.get? (t.address path) <;> simp [hresolve, hentry]

theorem read_eq_ok_iff {content : String} :
    t.read path = .ok content ↔ t.resolve path = .ok (t.address path) ∧
      t.get? (t.address path) = some (.file content) := by
  rw [read]
  rcases t.resolve_cases path with ⟨problem, hresolve⟩ | hresolve
  · simp [hresolve]
  · rcases hentry : t.get? (t.address path) with _ | _ | _ <;> simp [hresolve, hentry]

/-! ### Changes -/

/-- A change after which everything is there but what may be `lost`. -/
structure Keeps (lost : FileAddress → FileEntry → Prop) (t t' : FileTree) : Prop where
  workingDirectory : t'.workingDirectory = t.workingDirectory
  get? : ∀ a entry, ¬ lost a entry → t.get? a = some entry → t'.get? a = some entry

namespace Keeps

variable {lost lost' : FileAddress → FileEntry → Prop} {t t' t'' : FileTree}

theorem refl (lost : FileAddress → FileEntry → Prop) (t : FileTree) : Keeps lost t t :=
  ⟨rfl, fun _ _ _ h => h⟩

theorem trans (h : Keeps lost t t') (h' : Keeps lost t' t'') : Keeps lost t t'' where
  workingDirectory := h'.workingDirectory.trans h.workingDirectory
  get? a entry hlost hentry := h'.get? a entry hlost (h.get? a entry hlost hentry)

theorem mono (h : Keeps lost t t') (hle : ∀ a entry, lost a entry → lost' a entry) : Keeps lost' t t' where
  workingDirectory := h.workingDirectory
  get? a entry hlost hentry := h.get? a entry (fun hl => hlost (hle a entry hl)) hentry

end Keeps

/-- A change that makes directories where nothing stood, at places that may be `made`, and changes nothing else but
    what stands at places that are `free`. -/
structure Adds (made free : FileAddress → Prop) (t t' : FileTree) : Prop where
  workingDirectory : t'.workingDirectory = t.workingDirectory
  get? : ∀ a, ¬ free a → t'.get? a = t.get? a ∨ made a ∧ t.get? a = none ∧ t'.get? a = some .directory

namespace Adds

variable {made made' free free' : FileAddress → Prop} {t t' t'' : FileTree}

theorem refl (made free : FileAddress → Prop) (t : FileTree) : Adds made free t t := ⟨rfl, fun _ _ => .inl rfl⟩

theorem trans (h : Adds made free t t') (h' : Adds made free t' t'') : Adds made free t t'' where
  workingDirectory := h'.workingDirectory.trans h.workingDirectory
  get? a hfree := by
    rcases h'.get? a hfree with heq | ⟨hmade, hnone, hdirectory⟩
    · rw [heq]
      exact h.get? a hfree
    · rcases h.get? a hfree with heq | ⟨-, -, hdirectory'⟩
      · exact .inr ⟨hmade, heq ▸ hnone, hdirectory⟩
      · rw [hdirectory'] at hnone
        cases hnone

theorem mono (h : Adds made free t t') (hmade : ∀ a, made a → ¬ free' a → t.get? a = none → made' a)
    (hfree : ∀ a, free a → free' a) : Adds made' free' t t' where
  workingDirectory := h.workingDirectory
  get? a ha := (h.get? a fun hf => ha (hfree a hf)).imp_right fun ⟨hm, hnone, hd⟩ => ⟨hmade a hm ha hnone, hnone, hd⟩

theorem keeps (h : Adds made free t t') : Keeps (fun a _ => free a) t t' where
  workingDirectory := h.workingDirectory
  get? a entry hfree hentry := by
    rcases h.get? a hfree with heq | ⟨-, hnone, -⟩
    · rw [heq, hentry]
    · rw [hnone] at hentry
      cases hentry

end Adds

section Reading

variable {lost : FileAddress → FileEntry → Prop} {t t' : FileTree}

/-- The directories above the working directory are always there. -/
theorem get?_of_prefix_home (h : a <+: t.home) : t.get? a = some .directory := by
  rw [FileTree.get?, if_pos (List.isPrefixOf_iff_prefix.2 h)]

/-- A walk goes on as before if no directory on its way is lost. -/
theorem walk_of_keeps (hkeeps : Keeps lost t t') {b : FileAddress} {ps : List String} (h : t.walk a ps = .ok b)
    (hway : ∀ qs, qs <+: ps → qs.foldl follow a <+: t.home ∨ ¬ lost (qs.foldl follow a) .directory) :
    t'.walk a ps = .ok b := by
  induction ps generalizing a with
  | nil => exact h
  | cons part rest ih =>
    obtain ⟨hdirectory, hname, hrest⟩ := walk_cons_iff.1 h
    refine walk_cons_iff.2 ⟨?_, hname, ih hrest fun qs hqs => hway (part :: qs) (List.cons_prefix_cons.2 ⟨rfl, hqs⟩)⟩
    rcases hway [] List.nil_prefix with habove | hkept
    · exact get?_of_prefix_home (home_congr hkeeps.workingDirectory ▸ habove)
    · exact hkeeps.get? a .directory hkept hdirectory

theorem resolve_of_keeps (hkeeps : Keeps lost t t') (h : t.resolve path = .ok a)
    (hway : ∀ qs, qs <+: (t.start path).2 → qs.foldl follow (t.start path).1 <+: t.home ∨
      ¬ lost (qs.foldl follow (t.start path).1) .directory) :
    t'.resolve path = .ok a := by
  rw [resolve_eq_ok_iff] at h ⊢
  rw [start_congr hkeeps.workingDirectory]
  exact ⟨h.1, walk_of_keeps hkeeps h.2 hway⟩

/-- The same if no directory is lost, and the file has not changed. -/
theorem read_of_adds {made free : FileAddress → Prop} (h : Adds made free t t')
    (hkeeps : Keeps (fun _ entry => entry ≠ .directory) t t') {content : String}
    (hread : t.read path = .ok content) (hfree : ¬ free (t.address path)) : t'.read path = .ok content := by
  rw [read_eq_ok_iff] at hread ⊢
  rw [address_congr h.workingDirectory]
  exact ⟨resolve_of_keeps hkeeps hread.1 fun _ _ => .inr fun hlost => hlost rfl, h.keeps.get? _ _ hfree hread.2⟩

theorem stat_of_keeps (h : Keeps (fun _ entry => entry ≠ .directory) t t')
    (hstat : t.stat path = .ok .directory) : t'.stat path = .ok .directory := by
  rw [stat_eq_ok_iff] at hstat ⊢
  rw [address_congr h.workingDirectory]
  exact ⟨resolve_of_keeps h hstat.1 fun _ _ => .inr fun hlost => hlost rfl,
    h.get? _ _ (fun hlost => hlost rfl) hstat.2⟩

end Reading

/-! ### Operations -/

section Operations

variable {t t' : FileTree}

theorem get?_put (h : t.get? a ≠ some .directory) (entry : FileEntry) : (t.put a entry).get? a = some entry := by
  refine get?_put_self t a _ ?_
  rw [Bool.eq_false_iff]
  exact fun hprefix => h (get?_of_prefix_home (List.isPrefixOf_iff_prefix.1 hprefix))

theorem makeDirectory_eq_ok_iff :
    t.makeDirectory path = .ok t' ↔ t.resolve path = .ok (t.address path) ∧
      (t.get? (t.address path) = some .directory ∧ t' = t ∨
        t.get? (t.address path) = none ∧ t' = t.put (t.address path) .directory) := by
  rw [makeDirectory]
  rcases t.resolve_cases path with ⟨problem, hresolve⟩ | hresolve
  · simp [hresolve]
  · rcases hentry : t.get? (t.address path) with _ | _ | _ <;> simp [hresolve, hentry, eq_comm]

theorem of_makeDirectory (h : t.makeDirectory path = .ok t') :
    Adds (· = t.address path) (fun _ => False) t t' ∧ t'.stat path = .ok .directory := by
  obtain ⟨hresolve, ⟨hdirectory, rfl⟩ | ⟨hnone, rfl⟩⟩ := makeDirectory_eq_ok_iff.1 h
  · exact ⟨.refl _ _ _, stat_eq_ok_iff.2 ⟨hresolve, hdirectory⟩⟩
  · -- Nothing stood where the directory is put.
    have hself := get?_put (fun hdirectory => nomatch hnone.symm.trans hdirectory) .directory
    have hadds : Adds (· = t.address path) (fun _ => False) t (t.put (t.address path) .directory) := by
      refine ⟨rfl, fun b _ => ?_⟩
      by_cases hb : b = t.address path
      · subst hb
        exact .inr ⟨rfl, hnone, hself⟩
      · exact .inl (get?_put_of_ne t _ hb)
    exact ⟨hadds, stat_eq_ok_iff.2 ⟨resolve_of_keeps hadds.keeps hresolve fun _ _ => .inr id, hself⟩⟩

theorem adds_makeEach (t : FileTree) (paths : List String) :
    Adds (fun a => ∃ path ∈ paths, a = t.address path) (fun _ => False) t (t.makeEach paths).2 := by
  induction paths generalizing t with
  | nil => exact .refl _ _ _
  | cons path rest ih =>
    rw [makeEach]
    cases hmake : t.makeDirectory path with
    | error e => exact .refl _ _ _
    | ok t' =>
      have hfirst := (of_makeDirectory hmake).1
      refine (hfirst.mono ?_ fun _ => id).trans ((ih t').mono ?_ fun _ => id)
      · rintro a rfl - -
        exact ⟨path, List.mem_cons_self, rfl⟩
      · rintro a ⟨path', hpath', rfl⟩ - -
        exact ⟨path', List.mem_cons_of_mem path hpath', address_congr hfirst.workingDirectory path'⟩

/-- The directories that were made are there. -/
theorem stat_of_makeEach {paths : List String} (h : (t.makeEach paths).1 = .ok ())
    (hpath : path ∈ paths) : (t.makeEach paths).2.stat path = .ok .directory := by
  induction paths generalizing t with
  | nil => cases hpath
  | cons p rest ih =>
    rw [makeEach] at h ⊢
    cases hmake : t.makeDirectory p with
    | error e => simp [hmake] at h
    | ok t₁ =>
      simp only [hmake] at h ⊢
      rcases List.mem_cons.1 hpath with rfl | hrest
      · exact stat_of_keeps ((adds_makeEach t₁ rest).keeps.mono fun _ _ => False.elim) (of_makeDirectory hmake).2
      · exact ih h hrest

/-- A file is written where no directory stands. -/
theorem write_eq_ok_iff {content : String} :
    t.write path content = .ok t' ↔ t.resolve path = .ok (t.address path) ∧
      t.get? (t.address path) ≠ some .directory ∧ t' = t.put (t.address path) (.file content) := by
  rw [write]
  rcases t.resolve_cases path with ⟨problem, hresolve⟩ | hresolve
  · simp [hresolve]
  · rcases hentry : t.get? (t.address path) with _ | _ | _ <;> simp [hresolve, hentry, eq_comm]

section

variable {content : String} (h : t.write path content = .ok t')
include h

/-- Only a file that stands where a file is written is lost. -/
theorem keeps_write : Keeps (fun a entry => a = t.address path ∧ entry ≠ .directory) t t' := by
  obtain ⟨-, hdirectory, rfl⟩ := write_eq_ok_iff.1 h
  refine ⟨rfl, fun b entry hlost hentry => ?_⟩
  have hne : b ≠ t.address path := by
    rintro rfl
    refine hlost ⟨rfl, ?_⟩
    rintro rfl
    exact hdirectory hentry
  rwa [get?_put_of_ne t _ hne]

theorem adds_write (made : FileAddress → Prop) : Adds made (· = t.address path) t t' := by
  obtain ⟨-, -, rfl⟩ := write_eq_ok_iff.1 h
  exact ⟨rfl, fun b hb => .inl (get?_put_of_ne t _ hb)⟩

/-- **A written file** is read with its new content. -/
theorem read_of_write : t'.read path = .ok content := by
  have hkeeps := keeps_write h
  obtain ⟨hresolve, hdirectory, rfl⟩ := write_eq_ok_iff.1 h
  exact read_eq_ok_iff.2 ⟨resolve_of_keeps hkeeps hresolve fun _ _ => .inr fun hlost => hlost.2 rfl, get?_put hdirectory _⟩

end

/-- A file that can be read can be written, and is then read with its new content. -/
theorem exists_write_of_read {text : String} (h : t.read path = .ok text) (content : String) :
    ∃ t', FileAction.write path content t = (.ok (), t') ∧ t'.read path = .ok content := by
  obtain ⟨hresolve, hfile⟩ := read_eq_ok_iff.1 h
  have hwrite : t.write path content = .ok _ := write_eq_ok_iff.2 ⟨hresolve, by rw [hfile]; nofun, rfl⟩
  exact ⟨_, by rw [FileAction.write, FileAction.change, hwrite], read_of_write hwrite⟩

end Operations

/-- The effect of actions that make such changes, in a working directory. -/
def adding (directory : String) (made free : FileAddress → Prop) : Effect FileTree where
  Allows t t' := t.workingDirectory = directory → Adds made free t t'
  refl t _ := Adds.refl made free t
  trans h h' hdirectory := (h hdirectory).trans (h' ((h hdirectory).workingDirectory.trans hdirectory))

end FileTree

namespace FileAction

variable {α : Type} {e : Effect FileTree}

theorem bounds_look (operation : FileTree → Except FileError α) : e.Bounds (look operation) := e.refl

variable {directory : String} {made free : FileAddress → Prop}

theorem bounds_makeDirectories
    (h : ∀ t : FileTree, t.workingDirectory = directory → ∀ p ∈ leads path, ¬ t.address p <+: t.home →
      made (t.address p) ∨ free (t.address p)) :
    (FileTree.adding directory made free).Bounds (makeDirectories path) := by
  intro t ht
  refine (FileTree.adds_makeEach t (leads path)).mono ?_ fun _ => False.elim
  rintro _ ⟨p, hp, rfl⟩ hfree hnone
  refine (h t ht p hp fun habove => ?_).resolve_right hfree
  rw [FileTree.get?_of_prefix_home habove] at hnone
  cases hnone

theorem bounds_write (content : String)
    (h : ∀ t : FileTree, t.workingDirectory = directory → free (t.address path)) :
    (FileTree.adding directory made free).Bounds (write path content) := by
  intro t ht
  rw [write, change]
  cases hwrite : t.write path content with
  | error e => exact FileTree.Adds.refl _ _ _
  | ok t' =>
    refine (FileTree.adds_write hwrite made).mono (fun _ hmade _ _ => hmade) ?_
    rintro _ rfl
    exact h t ht

end FileAction

end ServiceCompiler
