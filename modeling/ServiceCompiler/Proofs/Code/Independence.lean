import ServiceCompiler.Proofs.Code.Generation
import ServiceCompiler.Proofs.Naming.Segment

namespace ServiceCompiler

open Code Service

/-!
# What the artifacts do not depend on

Two runs that differ only in what is kept for the reader, for the writer or for other tools give the same files,
octet by octet.

* `Service.SameFiles`, `Settings.SameFiles` — what has to agree.  Collections, the client project, workers and views
  are not among it; guarded paths count with tokens and a database only, and without a database nothing is left of
  the routes but their segments.
* `Generator.SameFiles.tasks_eq` — the source files to render are then the same, also those of the groups, whose names come
  from a pool that handlers draw from, too (`nameGroups_outlines`).
* `artifacts_eq_of_sameFiles` — so are the artifacts, in whatever order the files get ready.
-/

/-! ### What has to agree -/

/-- Two services of which the same files are made. -/
structure Service.SameFiles (s t : Service) : Prop where
  port : s.port = t.port
  middlewares : s.middlewares = t.middlewares
  envFile : s.envFile = t.envFile
  dialect : s.database.dialect = t.database.dialect
  enabled : s.auth.enabled = t.auth.enabled
  strategy : s.auth.strategy = t.auth.strategy
  /-- Guarded paths are looked at when there are tokens and a database. -/
  guarded : s.tokenAuth → s.hasDatabase → s.auth.guarded = t.auth.guarded
  /-- With a database, everything that its statements are made from counts. -/
  url : s.hasDatabase → s.database.url = t.database.url
  migrations : s.hasDatabase → s.migrations = t.migrations
  routes : s.hasDatabase → s.routes = t.routes
  /-- Without one, the segments of the routes do, in the order of their first appearance. -/
  segments : (s.routes.map Route.segment).eraseDups = (t.routes.map Route.segment).eraseDups

/-- Two settings under which the same files are made. -/
structure Settings.SameFiles (s t : Settings) : Prop where
  modulePath : s.modulePath = t.modulePath
  header : s.header = t.header
  bcryptCost : s.bcryptCost = t.bcryptCost
  goVersion : s.goVersion = t.goVersion

/-- Two generators that make the same files.  An engine counts only with a database. -/
structure Generator.SameFiles (g h : Generator) : Prop where
  service : g.service.SameFiles h.service
  settings : g.settings.SameFiles h.settings
  engine : g.service.hasDatabase → g.engine = h.engine
  rendersSource : g.rendersSource = h.rendersSource

/-! ### Files by their settings -/

namespace Settings.SameFiles

variable {s t : Settings} (h : s.SameFiles t)
include h

theorem path_eq : Package.path s = Package.path t := by
  funext p
  cases p <;> simp only [Package.path, Settings.packagePath, h.modulePath]

theorem importLines_eq : SourceFile.importLines s = SourceFile.importLines t := by
  have hspec : Package.importSpec s = Package.importSpec t := by
    funext p
    unfold Package.importSpec
    rw [h.path_eq]
  funext packages
  rw [SourceFile.importLines, SourceFile.importLines, h.path_eq, hspec]

theorem render?_eq (f : SourceFile) : f.render? s = f.render? t := by
  rw [SourceFile.render?, SourceFile.render?, h.header, h.importLines_eq]

end Settings.SameFiles

/-! ### Files by their service -/

namespace Service.SameFiles

variable {s t : Service} (h : s.SameFiles t)
include h

theorem hasDatabase_eq : s.hasDatabase = t.hasDatabase := by
  rw [hasDatabase, hasDatabase, h.dialect]

theorem tokenAuth_eq : s.tokenAuth = t.tokenAuth := by
  rw [tokenAuth, tokenAuth, h.enabled, h.strategy]

theorem hasMiddleware_eq : s.hasMiddleware = t.hasMiddleware := by
  funext kind
  rw [hasMiddleware, hasMiddleware, h.middlewares]

theorem appFile_eq (hasEngine : Bool) : appFile s hasEngine = appFile t hasEngine := by
  have hport : s.listenPort = t.listenPort := by
    rw [listenPort, listenPort, h.port]
  have hmain : mainFunction s hasEngine = mainFunction t hasEngine := by
    unfold mainFunction
    rw [hport, h.envFile, h.middlewares]
  rw [appFile, appFile, hmain, h.hasMiddleware_eq]

theorem moduleFile_eq {settings settings' : Settings} (hsettings : settings.SameFiles settings') :
    moduleFile settings s = moduleFile settings' t := by
  have hpackages : outsidePackages s = outsidePackages t := by
    rw [outsidePackages, outsidePackages, h.hasMiddleware_eq, h.envFile, h.tokenAuth_eq, h.dialect]
  rw [moduleFile, moduleFile, requirements, requirements, hpackages, hsettings.modulePath, hsettings.goVersion]

/-- With a database, the same paths are guarded; without tokens none is. -/
theorem isGuarded_eq (hdb : s.hasDatabase) : s.isGuarded = t.isGuarded := by
  funext path
  rw [isGuarded, isGuarded, ← h.tokenAuth_eq]
  by_cases htoken : s.tokenAuth
  · rw [h.guarded htoken hdb]
  · rw [Bool.eq_false_iff.2 htoken, Bool.false_and, Bool.false_and]

theorem groupFile?_eq (hdb : s.hasDatabase) (engine : Option Engine) (group : NamedGroup) :
    groupFile? s engine group = groupFile? t engine group := by
  have hregistrations : registrations s group = registrations t group := by
    rw [registrations, registrations, h.isGuarded_eq hdb]
  cases engine with
  | none => rfl
  | some e => rw [groupFile?, groupFile?, hregistrations]

/-- The groups are seen alike from outside, whatever becomes of their routes. -/
theorem outlines_eq :
    (nameGroups (Route.groups s.routes)).map NamedGroup.outline =
      (nameGroups (Route.groups t.routes)).map NamedGroup.outline :=
  nameGroups_outlines (by rw [map_segment_groups, map_segment_groups, h.segments])

end Service.SameFiles

/-! ### The source files to render -/

/-- A group of which nothing is left but what is seen from outside. -/
def GroupOutline.hull (o : GroupOutline) : NamedGroup where
  segment := o.segment
  routes := []
  register := o.register
  file := o.file
  handlers := []

/-- Where a function of groups looks at the outline only, lists of the same outlines are mapped alike. -/
theorem map_eq_of_outlines {α : Type} {f : NamedGroup → α} (hf : ∀ g : NamedGroup, f g = f g.outline.hull)
    {gs hs : List NamedGroup} (h : gs.map NamedGroup.outline = hs.map NamedGroup.outline) :
    gs.map f = hs.map f := by
  have hhull : ∀ groups : List NamedGroup,
      groups.map f = (groups.map NamedGroup.outline).map fun o => f o.hull := by
    intro groups
    rw [List.map_map]
    exact List.map_congr_left fun g _ => hf g
  rw [hhull gs, hhull hs, h]

namespace Generator

def groupTask (g : Generator) (group : NamedGroup) : SourceTask where
  path := groupPath group
  source :=
    match groupFile? g.service g.target group with
    | some file => .ok (some file)
    | none => .error (refused (groupPath group))

namespace SameFiles

variable {g h : Generator} (hgh : g.SameFiles h)
include hgh

theorem target_eq : g.target = h.target := by
  rw [target, target, ← hgh.service.hasDatabase_eq]
  by_cases hdb : g.service.hasDatabase
  · rw [if_pos hdb, if_pos hdb, hgh.engine hdb]
  · rw [if_neg hdb, if_neg hdb]

theorem checkReady_eq : g.checkReady = h.checkReady := by
  rw [checkReady, checkReady, hgh.rendersSource, ← hgh.service.hasDatabase_eq, hgh.service.dialect]
  by_cases hdb : g.service.hasDatabase
  · rw [hgh.engine hdb]
  · rw [Bool.eq_false_iff.2 hdb]
    rfl

theorem databaseSource_eq : g.databaseSource = h.databaseSource := by
  rw [databaseSource, databaseSource, ← hgh.target_eq]
  by_cases hdb : g.service.hasDatabase
  · rw [hgh.service.url hdb, hgh.service.migrations hdb]
  · rw [target, if_neg hdb]

theorem indexFile_eq (hasEngine : Bool) :
    indexFile g.service hasEngine g.groups = indexFile h.service hasEngine h.groups := by
  have hlines : (g.groups.map fun group => mountLine group.register group.mountPath) =
      h.groups.map fun group => mountLine group.register group.mountPath :=
    map_eq_of_outlines (fun _ => rfl) hgh.service.outlines_eq
  rw [indexFile, indexFile, mountBody, mountBody, hgh.service.tokenAuth_eq, hlines]

/-- The files of the groups are the same: with a database the groups are, and without one nothing is registered. -/
theorem map_groupTask_eq : g.groups.map g.groupTask = h.groups.map h.groupTask := by
  by_cases hdb : g.service.hasDatabase
  · have hgroups : g.groups = h.groups := by
      rw [groups, groups, hgh.service.routes hdb]
    rw [hgroups]
    refine List.map_congr_left fun group _ => ?_
    rw [groupTask, groupTask, hgh.service.groupFile?_eq hdb, hgh.target_eq]
  · have htarget : g.target = none := if_neg hdb
    have htask : h.groupTask = g.groupTask := by
      funext group
      rw [groupTask, groupTask, ← hgh.target_eq, htarget]
      rfl
    rw [htask]
    refine map_eq_of_outlines (fun group => ?_) hgh.service.outlines_eq
    rw [groupTask, groupTask, htarget]
    rfl

/-- **The source files are the same.** -/
theorem tasks_eq : g.tasks = h.tasks := by
  have hauth : authRoutesFile g.settings g.target = authRoutesFile h.settings h.target := by
    unfold authRoutesFile
    rw [hgh.settings.bcryptCost, hgh.target_eq]
  show _ ++ g.groups.map g.groupTask = _ ++ h.groups.map h.groupTask
  rw [hgh.map_groupTask_eq, hgh.databaseSource_eq, hauth, hgh.target_eq, hgh.service.appFile_eq,
    hgh.service.tokenAuth_eq, hgh.indexFile_eq]

theorem render_eq : g.render = h.render := by
  funext task
  unfold render
  simp only [hgh.settings.render?_eq]

theorem artifacts_eq (stopped : Bool) : g.artifacts stopped = h.artifacts stopped := by
  rw [artifacts, artifacts, hgh.checkReady_eq, hgh.tasks_eq, hgh.render_eq, hgh.service.moduleFile_eq hgh.settings]

end SameFiles

end Generator

/-- **What the artifacts do not depend on.** Two generators that agree in what counts give the same artifacts or the
    same failure, and this in whatever order the files of the two runs get ready. -/
theorem artifacts_eq_of_sameFiles {g h : Generator} (hgh : g.SameFiles h) (stopped : Bool) :
    g.artifacts stopped = h.artifacts stopped ∧
      ∀ order order' arrange arrange', order.Perm (List.range g.tasks.length) →
        order'.Perm (List.range h.tasks.length) → SortsByPath arrange → SortsByPath arrange' →
        ∀ as, g.artifactsIn order arrange stopped = .ok as ↔ h.artifactsIn order' arrange' stopped = .ok as := by
  refine ⟨hgh.artifacts_eq stopped, fun order order' arrange arrange' horder horder' harrange harrange' as => ?_⟩
  rw [Generator.artifactsIn_eq_ok_iff horder harrange, Generator.artifactsIn_eq_ok_iff horder' harrange',
    hgh.artifacts_eq stopped]

/-- A service with tokens and without a database. -/
def leanGenerator : Generator where
  service := {
    auth := { enabled := true, strategy := Auth.jwt }
    routes :=
      [ { method := "GET", path := "/items", action := .listAll, collection := "items" },
        { method := "GET", path := "/Items/all", action := .listAll, collection := "items" } ] }

/-- The same with all that does not count: a database without a dialect, guarded paths, a client project, other
    settings for writing, and other routes below the same segments, one of which cannot even be formatted. -/
def ladenGenerator : Generator where
  service := {
    database := { url := "u:p@tcp(h)/db", collections := ["items"] }
    migrations := [{ table := "items" }]
    auth := { enabled := true, strategy := Auth.jwt, guarded := ["/items/:id"] }
    routes :=
      [ { method := "]", path := "//items/:id", action := .getById, collection := "Register" },
        { method := "POST", path := "/Items", action := .insert, collection := "list", bodyFields := ["a", "a"] },
        { method := "POST", path := "/items/twice", action := .insert, collection := "list" } ]
    frontend := some { framework := Frontend.react, packages := ["react"] } }
  settings := { workers := 4, noViews := true }
  engine := some .mysql

theorem artifacts_leanGenerator :
    leanGenerator.SameFiles ladenGenerator ∧ ∃ as, leanGenerator.artifacts false = .ok as ∧
      ladenGenerator.artifacts false = .ok as ∧
      ladenGenerator.artifactsIn (List.range ladenGenerator.tasks.length).reverse Artifact.sort false = .ok as := by
  have hsame : leanGenerator.SameFiles ladenGenerator := {
    service := {
      port := rfl
      middlewares := rfl
      envFile := rfl
      dialect := rfl
      enabled := rfl
      strategy := rfl
      guarded := by decide
      url := by decide
      migrations := by decide
      routes := by decide
      segments := by decide +kernel }
    settings := ⟨rfl, rfl, rfl, rfl⟩
    engine := by decide
    rendersSource := rfl }
  obtain ⟨heq, hany⟩ := artifacts_eq_of_sameFiles hsame false
  have hitems : IsPlainWord "items" := ⟨by decide, List.all_eq_true.1 (by decide)⟩
  have hroute : ∀ {path}, IsRoutePath path → Route.WellFormed
      { method := "GET", path, action := .listAll, collection := "items" } := fun hpath =>
    ⟨hpath, hitems, by simp, by simp, by simp, by simp, by simp⟩
  have hs : leanGenerator.service.WellFormed := { wellFormed_default with
    strategy := .inr rfl
    routes := List.forall_mem_cons.2 ⟨hroute ⟨"items".toList, by decide, List.all_eq_true.1 (by decide)⟩,
      List.forall_mem_singleton.2 (hroute ⟨"Items/all".toList, by decide, List.all_eq_true.1 (by decide)⟩)⟩ }
  obtain ⟨header, hheader⟩ := exists_header?
  obtain ⟨as, has⟩ := Generator.exists_artifacts hs (g := leanGenerator) rfl hheader fun h => absurd h.1 (by decide)
  have hsort := Artifact.sortsByPath_sort
  have hin := (Generator.artifactsIn_eq_ok_iff (List.Perm.refl _) hsort).2 has
  exact ⟨hsame, as, has, heq ▸ has, (hany _ _ _ _ (List.Perm.refl _) (List.reverse_perm _) hsort hsort as).1 hin⟩

end ServiceCompiler
