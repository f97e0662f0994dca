import ServiceCompiler.Code.Artifact
import ServiceCompiler.Proofs.Code.Schedule
import ServiceCompiler.Proofs.Naming.File

namespace ServiceCompiler

open Text List Generator Code

/-!
# The set of artifacts

Which files a generator makes, and that neither the order in which they get ready nor the way they are sorted
shows in the result.

* `Generator.artifactsIn` — the artifacts of a run in which the files get ready in some order.
* `Generator.map_path_collected` — the paths that come together before they are sorted.
* `Generator.nodup_lower_paths` — no two of these paths are the same, also where case does not count, so that there
  is one way to sort them (`eq_of_sorted`).
* `ArtifactSet` — the whole account of the artifacts; `artifactSet_and_inAnyOrder` proves it.
* `GeneratedFrom` — a run for a service, in which each file that is needed becomes an artifact.
-/

variable {arrange : List Artifact → List Artifact} {task : SourceTask} {a : Artifact}

/-! ### Sorting by path -/

/-- Sorting by path.  Artifacts of the same path may end up in any order. -/
structure SortsByPath (arrange : List Artifact → List Artifact) : Prop where
  perm : ∀ as, (arrange as).Perm as
  sorted : ∀ as, (arrange as).Pairwise fun a b => a.path ≤ b.path

/-- The order by path that lists of artifacts are merged by. -/
def Artifact.sort (as : List Artifact) : List Artifact :=
  as.mergeSort fun a b => before a.path b.path

/-- Merging by a text sorts by it. -/
theorem pairwise_mergeSort_before {α : Type} (key : α → String) (xs : List α) :
    (xs.mergeSort fun a b => before (key a) (key b)).Pairwise fun a b => key a ≤ key b := by
  have htrans : ∀ a b c : α, before (key a) (key b) → before (key b) (key c) →
      before (key a) (key c) := by
    simp only [before, decide_eq_true_eq]
    exact fun a b c => String.le_trans
  have htotal : ∀ a b : α, before (key a) (key b) || before (key b) (key a) := by
    simp only [before, Bool.or_eq_true, decide_eq_true_eq]
    exact fun a b => String.le_total (key a) (key b)
  exact (pairwise_mergeSort htrans htotal xs).imp of_decide_eq_true

theorem Artifact.sortsByPath_sort : SortsByPath Artifact.sort where
  perm := fun as => mergeSort_perm as _
  sorted := pairwise_mergeSort_before Artifact.path

/-- Artifacts of distinct paths are sorted in one way. -/
theorem eq_of_sorted {as bs : List Artifact} (hperm : as.Perm bs) (hnodup : (bs.map Artifact.path).Nodup)
    (has : as.Pairwise fun a b => a.path ≤ b.path) (hbs : bs.Pairwise fun a b => a.path ≤ b.path) :
    as = bs := by
  refine hperm.eq_of_pairwise (fun a b ha hb hab hba => ?_) has hbs
  exact inj_on_of_nodup_map hnodup (hperm.mem_iff.1 ha) hb (String.le_antisymm hab hba)

/-- Sorted and distinct texts increase. -/
theorem pairwise_lt_of_sorted {α : Type} {key : α → String} {xs : List α} (hnodup : (xs.map key).Nodup)
    (hsorted : xs.Pairwise fun a b => key a ≤ key b) : (xs.map key).Pairwise (· < ·) := by
  rw [pairwise_map]
  rw [Nodup, pairwise_map] at hnodup
  exact hsorted.imp₂ (fun a b hle hne => String.not_le.1 fun hge => hne (String.le_antisymm hle hge)) hnodup

/-- The path of a file, unless there is no need for it. -/
def SourceTask.path? (task : SourceTask) : Option String :=
  match task.source with
  | .ok none => none
  | _ => some task.path

namespace Generator

/-! ### Runs -/

/-- What is there to sort when the slots are filled. -/
def collected (g : Generator) (slots : List (Option Artifact)) : List Artifact :=
  slots.filterMap id ++ [{ path := "go.mod", content := moduleFile g.settings g.service }]

/-- The artifacts from the files as they are made and from the way they are sorted. -/
def assemble (g : Generator) (files : Except Failure (List (Option Artifact)))
    (arrange : List Artifact → List Artifact) (stopped : Bool) : Except Failure (List Artifact) := do
  g.checkReady
  if stopped then throw .canceled
  return arrange (g.collected (← files))

/-- The artifacts of a run in which the files get ready in the given order. -/
def artifactsIn (g : Generator) (order : List Nat) (arrange : List Artifact → List Artifact)
    (stopped : Bool) : Except Failure (List Artifact) :=
  g.assemble (slotsInOrder g.render g.tasks order) arrange stopped

variable {g : Generator} {stopped : Bool}

theorem artifacts_eq_assemble : g.artifacts stopped = g.assemble (g.tasks.mapM g.render) Artifact.sort stopped :=
  rfl

theorem assemble_eq_ok_iff {files : Except Failure (List (Option Artifact))}
    {as : List Artifact} :
    g.assemble files arrange stopped = .ok as ↔
      g.checkReady = .ok () ∧ stopped = false ∧
        ∃ slots, files = .ok slots ∧ arrange (g.collected slots) = as := by
  rw [assemble]
  rcases g.checkReady with e | ⟨⟩
  · simp [bind, Except.bind]
  · cases stopped <;> rcases files with e | slots <;>
      simp [bind, Except.bind, pure, Except.pure, throw, throwThe, MonadExceptOf.throw]

/-! ### Files that are made -/

/-- The generator makes a file: which files there are, when there is a need for them, and when there is a way to
    make them. -/
inductive Makes (g : Generator) : String → SourceFile → Prop
  | app : Makes g "app.go" (appFile g.service g.target.isSome)
  | database {e : Engine} {c : Connection} (htarget : g.target = some e)
    (hconnection : e.connection g.service.database.url = .ok c) :
    Makes g "db/db.go" (databaseFile e c (e.plan g.service.migrations))
  | auth (htoken : g.service.tokenAuth) : Makes g "auth/auth.go" authFile
  | authRoutes (htoken : g.service.tokenAuth) :
    Makes g "routes/auth.go" (authRoutesFile g.settings g.target)
  | index : Makes g "routes/index.go" (indexFile g.service g.target.isSome g.groups)
  | group {group : NamedGroup} {file : SourceFile} (hgroup : group ∈ g.groups)
    (hfile : groupFile? g.service g.target group = some file) : Makes g (groupPath group) file

theorem databaseSource_eq_ok_some_iff {file : SourceFile} :
    g.databaseSource = .ok (some file) ↔
      ∃ e c, g.target = some e ∧ e.connection g.service.database.url = .ok c ∧
        databaseFile e c (e.plan g.service.migrations) = file := by
  rw [databaseSource]
  cases g.target with
  | none => simp
  | some e => cases h : e.connection g.service.database.url <;> simp [h]

/-- **The tasks make these files** and no others. -/
theorem makes_iff {path : String} {file : SourceFile} :
    g.Makes path file ↔ ⟨path, .ok (some file)⟩ ∈ g.tasks := by
  simp only [tasks, mem_append, mem_cons, not_mem_nil, or_false, mem_map,
    SourceTask.mk.injEq, Except.ok.injEq, Option.some.injEq]
  constructor
  · intro h
    cases h with
    | app => exact .inl (.inl ⟨rfl, rfl⟩)
    | database htarget hconnection =>
      have hsource := databaseSource_eq_ok_some_iff.2 ⟨_, _, htarget, hconnection, rfl⟩
      exact .inl (.inr (.inl ⟨rfl, hsource.symm⟩))
    | auth htoken => exact .inl (.inr (.inr (.inl ⟨rfl, (if_pos htoken).symm⟩)))
    | authRoutes htoken => exact .inl (.inr (.inr (.inr (.inl ⟨rfl, (if_pos htoken).symm⟩))))
    | index => exact .inl (.inr (.inr (.inr (.inr ⟨rfl, rfl⟩))))
    | group hgroup hfile => exact .inr ⟨_, hgroup, rfl, by rw [hfile]⟩
  · rintro ((⟨rfl, rfl⟩ | ⟨rfl, hsource⟩ | ⟨rfl, hneed⟩ | ⟨rfl, hneed⟩ | ⟨rfl, rfl⟩) |
      ⟨group, hgroup, rfl, hsource⟩)
    · exact .app
    · obtain ⟨e, c, htarget, hconnection, rfl⟩ := databaseSource_eq_ok_some_iff.1 hsource.symm
      exact .database htarget hconnection
    · obtain ⟨htoken, ⟨⟩⟩ := Option.ite_none_right_eq_some.1 hneed.symm
      exact .auth htoken
    · obtain ⟨htoken, ⟨⟩⟩ := Option.ite_none_right_eq_some.1 hneed.symm
      exact .authRoutes htoken
    · exact .index
    · cases hfile : groupFile? g.service g.target group with
      | none => simp [hfile] at hsource
      | some made =>
        rw [hfile] at hsource
        obtain rfl := Option.some.inj (Except.ok.inj hsource)
        exact .group hgroup hfile

/-! ### Paths -/

/-- A generator that is ready has an engine for its database. -/
theorem isSome_target (h : g.checkReady = .ok ()) : g.target.isSome = g.service.hasDatabase := by
  rw [target]
  cases hdatabase : g.service.hasDatabase with
  | false => rfl
  | true =>
    cases hengine : g.engine with
    | some e => rfl
    | none =>
      rw [checkReady, hdatabase, hengine] at h
      cases hsource : g.rendersSource <;> rw [hsource] at h <;> cases h

/-- An artifact is made by rendering a file. -/
theorem render_eq_ok_some_iff :
    g.render task = .ok (some a) ↔
      ∃ file, task.source = .ok (some file) ∧ file.render? g.settings = some a.content ∧ a.path = task.path := by
  rw [render]
  rcases task.source with e | _ | file
  · simp [bind, Except.bind]
  · simp [bind, Except.bind, pure, Except.pure]
  · cases hcontent : file.render? g.settings with
    | none => simp [bind, Except.bind, hcontent, throw, throwThe, MonadExceptOf.throw]
    | some content =>
      simp only [bind, Except.bind, hcontent, pure, Except.pure, Except.ok.injEq, Option.some.injEq]
      constructor
      · rintro rfl
        exact ⟨file, rfl, hcontent, rfl⟩
      · rintro ⟨_, rfl, hfile, hpath⟩
        rw [hcontent] at hfile
        cases a
        exact congrArg₂ Artifact.mk hpath.symm (Option.some.inj hfile)

/-- A file is rendered under its own path. -/
theorem map_path_of_render {a : Option Artifact} (h : g.render task = .ok a) : a.map Artifact.path = task.path? := by
  rw [render] at h
  rw [SourceTask.path?]
  rcases hsource : task.source with e | _ | file <;> rw [hsource] at h
  · cases h
  · cases h
    rfl
  · cases hcontent : file.render? g.settings with
    | none =>
      simp [bind, Except.bind, hcontent, throw, throwThe, MonadExceptOf.throw] at h
    | some content =>
      simp only [bind, Except.bind, hcontent] at h
      cases h
      rfl

/-- The files that come together have the paths of the tasks that are needed. -/
theorem map_path_filterMap {tasks : List SourceTask} {slots : List (Option Artifact)}
    (h : Forall₂ (fun task a => g.render task = .ok a) tasks slots) :
    (slots.filterMap id).map Artifact.path = tasks.filterMap SourceTask.path? := by
  induction h with
  | nil => rfl
  | @cons task a tasks slots hrender _ ih =>
    have hpath := map_path_of_render hrender
    cases a with
    | none =>
      rw [filterMap_cons_none (f := id) rfl, filterMap_cons_none hpath.symm]
      exact ih
    | some artifact =>
      rw [filterMap_cons_some (f := id) rfl, filterMap_cons_some hpath.symm, map_cons, ih]

/-- The paths of the files that do not depend on the routes. -/
def fixedPaths (g : Generator) : List String :=
  ["app.go"] ++ (if g.service.hasDatabase then ["db/db.go"] else []) ++
    (if g.service.tokenAuth then ["auth/auth.go", "routes/auth.go"] else []) ++ ["routes/index.go"]

theorem path?_databaseSource :
    SourceTask.path? ⟨"db/db.go", g.databaseSource⟩ = if g.target.isSome then some "db/db.go" else none := by
  rw [SourceTask.path?, databaseSource]
  cases g.target with
  | none => rfl
  | some e => cases hconnection : e.connection g.service.database.url <;> simp only [hconnection] <;> rfl

theorem filterMap_path?_tasks (h : g.checkReady = .ok ()) :
    g.tasks.filterMap SourceTask.path? = g.fixedPaths ++ g.groups.map groupPath := by
  rw [tasks, filterMap_append, filterMap_map, fixedPaths, ← isSome_target h]
  congr 1
  · simp only [filterMap_cons, path?_databaseSource]
    cases g.target.isSome <;> cases g.service.tokenAuth <;> rfl
  · rw [← filterMap_eq_map]
    refine filterMap_congr fun group _ => ?_
    -- A group has a file in any case, if only one that cannot be made.
    rw [Function.comp_apply, SourceTask.path?]
    cases groupFile? g.service g.target group <;> rfl

/-- **Before sorting.** The paths are those of the fixed files, of the groups and of the module file. -/
theorem map_path_collected (hready : g.checkReady = .ok ()) {slots : List (Option Artifact)}
    (hslots : g.tasks.mapM g.render = .ok slots) :
    (g.collected slots).map Artifact.path = g.fixedPaths ++ g.groups.map groupPath ++ ["go.mod"] := by
  rw [collected, map_append, map_path_filterMap (mapM_eq_ok_iff.1 hslots), filterMap_path?_tasks hready]
  rfl

/-! ### Distinct paths -/

theorem lower_groupPath (group : NamedGroup) : lower (groupPath group) = "routes/" ++ lower group.file := by
  rw [groupPath, lower_append]
  congr 1

/-- All paths that do not depend on the routes. -/
def knownPaths : List String :=
  ["app.go", "db/db.go", "auth/auth.go", "routes/auth.go", "routes/index.go", "go.mod"]

/-- Of the known paths, only those of the reserved files are in the directory of the groups. -/
theorem mem_reservedFiles_of_routes {name : String} (h : "routes/" ++ name ∈ knownPaths) : name ∈ reservedFiles := by
  simp only [knownPaths, mem_cons, not_mem_nil, or_false, ← String.toList_inj, String.toList_append] at h
  simp [reservedFiles, ← String.toList_inj] at h ⊢
  exact h.symm

theorem fixedPaths_sublist (g : Generator) : (g.fixedPaths ++ ["go.mod"]).Sublist knownPaths := by
  rw [fixedPaths]
  cases g.service.hasDatabase <;> cases g.service.tokenAuth <;> decide

theorem mem_fixedPaths_iff (g : Generator) :
    ("db/db.go" ∈ g.fixedPaths ++ ["go.mod"] ↔ g.service.hasDatabase) ∧
      ("auth/auth.go" ∈ g.fixedPaths ++ ["go.mod"] ↔ g.service.tokenAuth) ∧
      ("routes/auth.go" ∈ g.fixedPaths ++ ["go.mod"] ↔ g.service.tokenAuth) := by
  rw [fixedPaths]
  cases g.service.hasDatabase <;> cases g.service.tokenAuth <;> decide

/-- The file of a group stands in for no other, also where case does not count. -/
theorem lower_groupPath_not_mem {group : NamedGroup} (h : group ∈ g.groups) :
    lower (groupPath group) ∉ knownPaths := by
  intro hknown
  rw [lower_groupPath] at hknown
  exact (nodup_files (Route.groups g.service.routes)).2 group h (mem_reservedFiles_of_routes hknown)

theorem lower_knownPaths : knownPaths.map lower = knownPaths := by decide

theorem not_mem_groupPaths {path : String} (h : path ∈ knownPaths) : path ∉ g.groups.map groupPath := by
  intro hpath
  obtain ⟨group, hgroup, rfl⟩ := mem_map.1 hpath
  have hlower := mem_map_of_mem (f := lower) h
  rw [lower_knownPaths] at hlower
  exact lower_groupPath_not_mem hgroup hlower

theorem paths_perm (g : Generator) : (g.fixedPaths ++ g.groups.map groupPath ++ ["go.mod"]).Perm
    (g.fixedPaths ++ ["go.mod"] ++ g.groups.map groupPath) := by
  rw [append_assoc, append_assoc]
  exact perm_append_comm.append_left _

/-- **No path twice**, also where case does not count. -/
theorem nodup_lower_paths (g : Generator) :
    ((g.fixedPaths ++ g.groups.map groupPath ++ ["go.mod"]).map lower).Nodup := by
  have hfixed : ((g.fixedPaths ++ ["go.mod"]).map lower).Sublist knownPaths :=
    lower_knownPaths ▸ g.fixedPaths_sublist.map lower
  have hgroups : (g.groups.map groupPath).map lower =
      (g.groups.map fun group => lower group.file).map ("routes/" ++ ·) := by
    rw [map_map, map_map]
    exact map_congr_left fun group _ => lower_groupPath group
  rw [(g.paths_perm.map lower).nodup_iff, map_append, nodup_append']
  refine ⟨hfixed.nodup (by decide), ?_, ?_⟩
  · rw [hgroups]
    exact (nodup_files _).1.map fun a b hab => (String.append_right_inj "routes/").1 hab
  · intro path hpath hroutes
    obtain ⟨_, hgroup, rfl⟩ := mem_map.1 hroutes
    obtain ⟨group, hmem, rfl⟩ := mem_map.1 hgroup
    exact lower_groupPath_not_mem hmem (hfixed.subset hpath)

end Generator

/-! ### The account -/

/-- **The account** of the artifacts of a generator. -/
structure ArtifactSet (g : Generator) (as : List Artifact) : Prop where
  /-- The artifacts are listed by path, -/
  increasing : (as.map Artifact.path).Pairwise (· < ·)
  /-- of which no two are the same, also where case does not count. -/
  nodup_lower : (as.map fun a => lower a.path).Nodup
  /-- The paths are these, each once. -/
  paths_perm : (as.map Artifact.path).Perm
    (["app.go", "go.mod", "routes/index.go"] ++ (if g.service.hasDatabase then ["db/db.go"] else []) ++
      (if g.service.tokenAuth then ["auth/auth.go", "routes/auth.go"] else []) ++
      g.groups.map fun group => "routes/" ++ group.file)
  /-- No group takes the place of a file that is not needed. -/
  database_iff : "db/db.go" ∈ as.map Artifact.path ↔ g.service.hasDatabase
  tokens_iff : "auth/auth.go" ∈ as.map Artifact.path ↔ g.service.tokenAuth
  tokenRoutes_iff : "routes/auth.go" ∈ as.map Artifact.path ↔ g.service.tokenAuth
  /-- The files of the groups are in their directory. -/
  isFileName : ∀ group ∈ g.groups, IsFileName group.file

/-- An artifact is a known file or that of a group. -/
theorem ArtifactSet.mem_knownPaths_or {g : Generator} {as : List Artifact} (h : ArtifactSet g as) (ha : a ∈ as) :
    a.path ∈ knownPaths ∨ ∃ file, IsFileName file ∧ a.path = "routes/" ++ file := by
  have hpath := h.paths_perm.mem_iff.1 (mem_map_of_mem (f := Artifact.path) ha)
  rcases mem_append.1 hpath with hfixed | hgroup
  · left
    revert hfixed
    generalize a.path = path
    cases g.service.hasDatabase <;> cases g.service.tokenAuth <;> revert path <;> decide
  · obtain ⟨group, hgroup, heq⟩ := mem_map.1 hgroup
    exact .inr ⟨group.file, h.isFileName group hgroup, heq.symm⟩

namespace Generator

variable {g : Generator} {slots : List (Option Artifact)}

theorem nodup_lower_collected (hready : g.checkReady = .ok ()) (hslots : g.tasks.mapM g.render = .ok slots) :
    ((g.collected slots).map fun a => lower a.path).Nodup := by
  have hnodup := g.nodup_lower_paths
  rwa [← map_path_collected hready hslots, map_map] at hnodup

theorem nodup_collected (hready : g.checkReady = .ok ()) (hslots : g.tasks.mapM g.render = .ok slots) :
    ((g.collected slots).map Artifact.path).Nodup := by
  rw [map_path_collected hready hslots]
  exact g.nodup_lower_paths.of_map

/-- **Where artifacts come from.** They are the rendered files and the module file. -/
theorem mem_artifacts_iff {stopped : Bool} {as : List Artifact} (h : g.artifacts stopped = .ok as) :
    a ∈ as ↔ (∃ task ∈ g.tasks, g.render task = .ok (some a)) ∨
      a = ⟨"go.mod", moduleFile g.settings g.service⟩ := by
  rw [artifacts_eq_assemble] at h
  obtain ⟨-, -, slots, hslots, rfl⟩ := assemble_eq_ok_iff.1 h
  rw [(Artifact.sortsByPath_sort.perm _).mem_iff, collected, mem_append, mem_filterMap, mem_singleton,
    ← mem_iff_of_mapM hslots]
  simp only [id, exists_eq_right]

/-- There is one way to sort what comes together. -/
theorem arrange_collected (hready : g.checkReady = .ok ()) (hslots : g.tasks.mapM g.render = .ok slots)
    (harrange : SortsByPath arrange) :
    arrange (g.collected slots) = Artifact.sort (g.collected slots) := by
  have hsort := Artifact.sortsByPath_sort
  have hnodup : ((Artifact.sort (g.collected slots)).map Artifact.path).Nodup :=
    ((hsort.perm _).map _).nodup_iff.2 (nodup_collected hready hslots)
  exact eq_of_sorted ((harrange.perm _).trans (hsort.perm _).symm) hnodup (harrange.sorted _) (hsort.sorted _)

theorem artifactSet_sort (hready : g.checkReady = .ok ()) (hslots : g.tasks.mapM g.render = .ok slots) :
    ArtifactSet g (Artifact.sort (g.collected slots)) := by
  have hsort := Artifact.sortsByPath_sort.perm (g.collected slots)
  have hperm : ((Artifact.sort (g.collected slots)).map Artifact.path).Perm
      (g.fixedPaths ++ ["go.mod"] ++ g.groups.map groupPath) := by
    have hpaths := hsort.map Artifact.path
    rw [map_path_collected hready hslots] at hpaths
    exact hpaths.trans g.paths_perm
  -- The groups have no part in whether a known path is there.
  have hknown : ∀ path ∈ knownPaths, path ∈ (Artifact.sort (g.collected slots)).map Artifact.path ↔
      path ∈ g.fixedPaths ++ ["go.mod"] := by
    intro path hpath
    rw [hperm.mem_iff, mem_append, or_iff_left (not_mem_groupPaths hpath)]
  exact {
    increasing := pairwise_lt_of_sorted ((hsort.map _).nodup_iff.2 (nodup_collected hready hslots))
      (Artifact.sortsByPath_sort.sorted _)
    nodup_lower := (hsort.map _).nodup_iff.2 (nodup_lower_collected hready hslots)
    paths_perm := by
      refine hperm.trans (Perm.append_right _ ?_)
      rw [fixedPaths]
      cases g.service.hasDatabase <;> cases g.service.tokenAuth <;> decide
    database_iff := (hknown _ (by decide)).trans g.mem_fixedPaths_iff.1
    tokens_iff := (hknown _ (by decide)).trans g.mem_fixedPaths_iff.2.1
    tokenRoutes_iff := (hknown _ (by decide)).trans g.mem_fixedPaths_iff.2.2
    isFileName := fun group hgroup => isFileName_of_mem_nameGroups hgroup }

/-- In whatever order the files get ready and whatever way they are sorted, the artifacts are the same. -/
theorem artifactsIn_eq_ok_iff {stopped : Bool} {as : List Artifact} {order : List Nat}
    (horder : order.Perm (range g.tasks.length))
    (harrange : SortsByPath arrange) :
    g.artifactsIn order arrange stopped = .ok as ↔ g.artifacts stopped = .ok as := by
  rw [artifacts_eq_assemble, artifactsIn, assemble_eq_ok_iff, assemble_eq_ok_iff]
  simp only [slotsInOrder_eq_ok_iff horder]
  refine and_congr_right fun hready => and_congr_right fun _ => exists_congr fun slots => ?_
  refine and_congr_right fun hslots => ?_
  rw [arrange_collected hready hslots harrange]

theorem artifactSet_of_artifacts {stopped : Bool} {as : List Artifact} (h : g.artifacts stopped = .ok as) :
    ArtifactSet g as := by
  rw [artifacts_eq_assemble] at h
  obtain ⟨hready, -, slots, hslots, rfl⟩ := assemble_eq_ok_iff.1 h
  exact artifactSet_sort hready hslots

end Generator

/-! ### Runs for a service -/

/-- A generator for a service has the engine that the service names, and has one when there is a database. -/
theorem of_ofService {settings : Settings} {s : Service} {g : Generator} (h : ofService settings s = .ok g) :
    g.service = s ∧ g.settings = settings ∧ g.target = Engine.ofName? s.database.dialect ∧
      g.target.isSome = s.hasDatabase := by
  rw [ofService] at h
  by_cases hdb : s.hasDatabase
  · rw [if_pos hdb, Engine.ofName] at h
    cases he : Engine.ofName? s.database.dialect with
    | none =>
      rw [he] at h
      cases h
    | some e =>
      rw [he] at h
      cases h
      rw [target, if_pos hdb, hdb]
      exact ⟨rfl, rfl, rfl, rfl⟩
  · rw [if_neg hdb] at h
    cases h
    have hnone : s.database.dialect = "" := by simpa [Service.hasDatabase] using hdb
    rw [target, if_neg hdb, hnone, Bool.eq_false_iff.2 hdb]
    exact ⟨rfl, rfl, rfl, rfl⟩

/-- What a run is: a service, the settings, the generator and its artifacts. -/
structure GeneratedFrom (settings : Settings) (s : Service) (g : Generator) (as : List Artifact) : Prop where
  generator : ofService settings s = .ok g
  artifacts : ∃ stopped, g.artifacts stopped = .ok as

namespace GeneratedFrom

variable {settings : Settings} {s : Service} {g : Generator} {as : List Artifact} (h : GeneratedFrom settings s g as)

include h

/-- A file that is needed is rendered. -/
theorem exists_artifact {f : SourceFile} (htask : task ∈ g.tasks) (hsource : task.source = .ok (some f)) :
    ∃ a ∈ as, a.path = task.path ∧ f.render? settings = some a.content := by
  obtain ⟨stopped, has⟩ := h.artifacts
  obtain ⟨-, rfl, -, -⟩ := of_ofService h.generator
  obtain ⟨-, -, slots, hslots, -⟩ := assemble_eq_ok_iff.1 (artifacts_eq_assemble ▸ has)
  obtain ⟨slot, hslot⟩ := exists_ok_of_mapM hslots htask
  have hpath := map_path_of_render hslot
  rw [SourceTask.path?, hsource] at hpath
  cases slot with
  | none => cases hpath
  | some a =>
    obtain ⟨f', hf', hcontent, hpath⟩ := render_eq_ok_some_iff.1 hslot
    obtain rfl : f = f' := Option.some.inj (Except.ok.inj (hsource.symm.trans hf'))
    exact ⟨a, (mem_artifacts_iff has).2 (.inl ⟨task, htask, hslot⟩), hpath, hcontent⟩

/-- A run with a database has made its file: without a connection there would be no artifacts. -/
theorem exists_databaseSource {e : Engine} (he : g.target = some e) :
    ∃ c, g.databaseSource = .ok (some (databaseFile e c (e.plan g.service.migrations))) := by
  obtain ⟨stopped, has⟩ := h.artifacts
  obtain ⟨-, -, slots, hslots, -⟩ := assemble_eq_ok_iff.1 (artifacts_eq_assemble ▸ has)
  have htask : ⟨"db/db.go", g.databaseSource⟩ ∈ g.tasks := mem_append_left _ (by simp)
  obtain ⟨slot, hslot⟩ := exists_ok_of_mapM hslots htask
  simp only [databaseSource, he] at hslot ⊢
  cases hc : e.connection g.service.database.url with
  | error _ =>
    simp only [hc] at hslot
    cases hslot
  | ok c => exact ⟨c, rfl⟩

end GeneratedFrom

/-- **The artifacts.** In whatever order the files get ready and whatever way they are sorted by path, the
    artifacts are the same, and they are the ones that the service asks for. -/
theorem artifactSet_and_inAnyOrder (g : Generator) (stopped : Bool) (as : List Artifact) :
    (∀ order arrange, order.Perm (List.range g.tasks.length) → SortsByPath arrange →
      (g.artifactsIn order arrange stopped = .ok as ↔ g.artifacts stopped = .ok as)) ∧
    (g.artifacts stopped = .ok as → ArtifactSet g as) := by
  refine ⟨fun order arrange horder harrange => Generator.artifactsIn_eq_ok_iff horder harrange, fun h => ?_⟩
  exact Generator.artifactSet_of_artifacts h

/-- A service with paths that lead up, that differ by case and that ask for the name of a file of their own. -/
def crossingGenerator : Generator where
  service :=
    { auth := { enabled := true, strategy := Auth.jwt }
      routes :=
        [ { method := "GET", path := "/../Index", action := .listAll, collection := "items" },
          { method := "GET", path := "/Auth", action := .listAll, collection := "items" },
          { method := "GET", path := "/auth", action := .listAll, collection := "items" } ] }

/-- The run succeeds, also when the files get ready the other way round. -/
theorem artifactSet_crossingGenerator :
    ∃ as, crossingGenerator.artifacts false = .ok as ∧
      crossingGenerator.artifactsIn (List.range crossingGenerator.tasks.length).reverse Artifact.sort false =
        .ok as ∧
      ArtifactSet crossingGenerator as := by
  have hok : (crossingGenerator.artifacts false).toBool = true := by decide +kernel
  obtain ⟨as, has⟩ := exists_ok_of_toBool hok
  obtain ⟨hany, hset⟩ := artifactSet_and_inAnyOrder crossingGenerator false as
  exact ⟨as, has, (hany _ _ (List.reverse_perm _) Artifact.sortsByPath_sort).2 has, hset has⟩

end ServiceCompiler
