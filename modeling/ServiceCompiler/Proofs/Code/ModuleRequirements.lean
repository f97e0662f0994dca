import ServiceCompiler.Proofs.Code.Generation

namespace ServiceCompiler

open Code Text Octets List Package Generator

/-!
# The module file and the imports

The module file requires modules for the packages that the generated files import.  Both sides are taken from the
texts: the requirements from the module file, and the imports from the other files.

* `ImportsOutside` — a generated file imports a package that is neither of the standard library nor of the service.
* `RequirementAccount` — what the module file says about these imports.
* `requirementAccount_artifacts` — it holds whenever the artifacts can be made.  Each import has one required module
  that owns it, but the module for hashing passwords is required also where no file imports it: with tokens and
  without a database.
-/

variable {p : Package} {f : SourceFile} {task : SourceTask} {name : String} {r : Requirement}

/-! ### Paths of packages and modules -/

/-- Whether a path leads outside the standard library: its first element has a dot. -/
def isDotted (path : Octets) : Bool := (path.takeWhile (!isChar '/' ·)).any (isChar '.')

/-- A module owns the packages at its path and below. -/
def Code.Requirement.Owns (r : Requirement) (path : Octets) : Prop :=
  path = ofString r.path ∨ ofString (r.path ++ "/") <+: path

instance (r : Requirement) (path : Octets) : Decidable (r.Owns path) :=
  inferInstanceAs (Decidable (_ ∨ _))

/-- The packages of the service itself: the directories of its files below the path of the module. -/
def ownPackages (settings : Settings) (as : List Artifact) : List String :=
  as.filterMap fun a =>
    (cutLast? '/' a.path.toList).map fun place => settings.packagePath (String.ofList place.1)

/-- A generated file imports the package of a path. -/
def Imports (settings : Settings) (as : List Artifact) (path : Octets) : Prop :=
  ∃ a ∈ as, a.path ≠ "go.mod" ∧ ∃ paths, (a.code? settings).bind importPaths? = some paths ∧ path ∈ paths

/-- A generated file imports a package from outside the standard library and outside the service. -/
def ImportsOutside (settings : Settings) (as : List Artifact) (path : Octets) : Prop :=
  Imports settings as path ∧ isDotted path ∧ path ∉ (ownPackages settings as).map ofString

/-! ### What the files import -/

/-- The packages that the files of a service may import. -/
def Importable (s : Service) : Package → Prop
  | .standard path => isDotted (ofString path) = false
  | .own name => name = "routes" ∨ (name = "db" ∧ s.hasDatabase) ∨ (name = "auth" ∧ s.tokenAuth)
  | p => p ∈ outsidePackages s ∧ (p = .bcrypt → s.hasDatabase)

/-- What is known of the imports of each file: they can be read, and they are all needed. -/
structure ImportsWithin (s : Service) (f : SourceFile) : Prop where
  isWord : IsWord f.package
  imports_ne_nil : f.imports ≠ []
  importable : ∀ p ∈ f.imports, Importable s p

section Files

variable {s : Service}

theorem mem_outsidePackages_iff :
    p ∈ outsidePackages s ↔
      p = .gin ∨ (p = .cors ∧ s.hasMiddleware .cors) ∨ (p = .static ∧ s.hasMiddleware .static) ∨
        (p = .godotenv ∧ s.envFile ≠ "") ∨ ((p = .jwt ∨ p = .bcrypt) ∧ s.tokenAuth) ∨
        ∃ e, Engine.ofName? s.database.dialect = some e ∧ p = .driver e := by
  have hite : ∀ {c : Bool} {ps : List Package}, p ∈ (if c then ps else []) ↔ p ∈ ps ∧ c := by
    intro c ps
    cases c <;> simp
  have henv : p ∈ (if s.envFile = "" then [] else [godotenv]) ↔ p = .godotenv ∧ s.envFile ≠ "" := by
    split <;> simp_all
  simp only [outsidePackages, mem_append, hite, henv, mem_cons, not_mem_nil, or_false,
    Option.mem_toList, Option.map_eq_some_iff, or_assoc, eq_comm (b := p)]

/-- The paths of the standard library that generated code uses. -/
def standardPaths : List String :=
  ["net/http", "log/slog", "database/sql", "context", "os", "strings", "fmt", "net/url", "net", "io", "bytes",
   "encoding/json"]

/-- Packages that any file may import. -/
def commonPackages : List Package := .gin :: standardPaths.map standard

theorem importable_of_mem_common (hp : p ∈ commonPackages) : Importable s p := by
  have hundotted : ∀ path ∈ standardPaths, isDotted (ofString path) = false := by decide
  rcases mem_cons.1 hp with rfl | hp
  · exact ⟨mem_outsidePackages_iff.2 (.inl rfl), by simp⟩
  · obtain ⟨path, hpath, rfl⟩ := mem_map.1 hp
    exact hundotted path hpath

/-- Beside the common packages, only the `extra` ones have to be accounted for. -/
theorem importable_of_all {ps : List Package} (extra : List Package) (hextra : ∀ p ∈ extra, Importable s p)
    (h : ps.all (extra ++ commonPackages).contains = true) : ∀ p ∈ ps, Importable s p := by
  intro p hp
  rcases mem_append.1 (contains_iff_mem.1 (all_eq_true.1 h p hp)) with hp | hp
  · exact hextra p hp
  · exact importable_of_mem_common hp

theorem importable_of_common {ps : List Package} (h : ps.all commonPackages.contains = true) :
    ∀ p ∈ ps, Importable s p :=
  importable_of_all [] (by simp) h

/-- A file imports no more than its declarations use. -/
theorem importsWithin_of_declarations (hword : IsWord f.package) (hp : p ∈ f.imports)
    (heffects : ∀ p ∈ f.effects, Importable s p) (h : ∀ d ∈ f.declarations, ∀ p ∈ d.uses, Importable s p) :
    ImportsWithin s f where
  isWord := hword
  imports_ne_nil := ne_nil_of_mem hp
  importable := by
    intro q hq
    rcases mem_imports_iff.1 hq with hq | ⟨d, hd, hq⟩
    · exact heffects q hq
    · exact h d hd q hq

theorem importable_ownDatabase {c : Bool} (h : c → s.hasDatabase) :
    ∀ p ∈ (if c then [own "db"] else []), Importable s p := by
  intro p hp
  cases c with
  | false => cases hp
  | true =>
    rw [mem_singleton.1 hp]
    exact .inr (.inl ⟨rfl, h rfl⟩)

theorem importable_middlewareLine {m : Middleware} (hm : m ∈ s.middlewares) :
    ∀ p ∈ (middlewareLine m).2, Importable s p := by
  intro p hp
  have hhas : ∀ {kind}, m.kind = kind → s.hasMiddleware kind := fun hkind =>
    any_eq_true.2 ⟨m, hm, beq_iff_eq.2 hkind⟩
  rw [middlewareLine] at hp
  cases hkind : m.kind with
  | json => simp [hkind] at hp
  | cors =>
    obtain rfl : p = .cors := by simpa [hkind] using hp
    exact ⟨mem_outsidePackages_iff.2 (.inr (.inl ⟨rfl, hhas hkind⟩)), by simp⟩
  | logger =>
    obtain rfl : p = .gin := by simpa [hkind] using hp
    exact importable_of_mem_common mem_cons_self
  | static =>
    obtain rfl : p = .static := by simpa [hkind] using hp
    exact ⟨mem_outsidePackages_iff.2 (.inr (.inr (.inl ⟨rfl, hhas hkind⟩))), by simp⟩
  | other name => simp [hkind] at hp

theorem importable_mainFunction : ∀ p ∈ (mainFunction s s.hasDatabase).uses, Importable s p := by
  have henv : ∀ p ∈ (if s.envFile = "" then [] else [godotenv]), Importable s p := by
    intro p hp
    split at hp
    · cases hp
    · rename_i henv
      rw [mem_singleton.1 hp]
      exact ⟨mem_outsidePackages_iff.2 (by simp [henv]), by simp⟩
  have hroutes : ∀ p ∈ [context, .gin, .own "routes", slog, os], Importable s p :=
    importable_of_all [.own "routes"] (forall_mem_singleton.2 (.inl rfl)) (by decide)
  show ∀ p ∈ _ ++ _ ++ _ ++ _, _
  simp only [forall_mem_append]
  refine ⟨⟨⟨hroutes, henv⟩, importable_ownDatabase id⟩, ?_⟩
  intro p hp
  simp only [mem_flatMap, mem_map] at hp
  obtain ⟨_, ⟨m, hm, rfl⟩, hp⟩ := hp
  exact importable_middlewareLine hm p hp

theorem importsWithin_appFile : ImportsWithin s (appFile s s.hasDatabase) := by
  refine importsWithin_of_declarations (p := .gin) (by decide : IsWord "main") ?_ (by simp [appFile]) ?_
  · exact mem_imports_iff.2 (.inr ⟨handleErrors, by simp [appFile], by decide⟩)
  · show ∀ d ∈ [mainFunction s s.hasDatabase] ++ (if s.hasMiddleware .json then [parseJson] else []) ++ [handleErrors], _
    simp only [forall_mem_append, forall_mem_singleton]
    refine ⟨⟨importable_mainFunction, ?_⟩, importable_of_common (by decide)⟩
    intro d hd
    split at hd
    · rw [mem_singleton.1 hd]
      exact importable_of_common (by decide)
    · cases hd

theorem importsWithin_databaseFile {e : Engine} (he : Engine.ofName? s.database.dialect = some e) (c : Connection)
    (steps : List PlanStep) : ImportsWithin s (databaseFile e c steps) := by
  have hdriver : Importable s (.driver e) := ⟨mem_outsidePackages_iff.2 (by simp [he]), by simp⟩
  refine importsWithin_of_declarations (p := .driver e) (by decide : IsWord "db") ?_ ?_ ?_
  · exact mem_imports_iff.2 (.inl mem_cons_self)
  · intro p hp
    rw [mem_singleton.1 hp]
    exact hdriver
  · have huses : ((databaseFile e c steps).declarations.flatMap (·.uses)).all commonPackages.contains = true := by
      cases e <;> rfl
    exact fun d hd p hp => importable_of_common huses p (mem_flatMap.2 ⟨d, hd, hp⟩)

theorem importsWithin_authFile (h : s.tokenAuth) : ImportsWithin s authFile := by
  refine importsWithin_of_declarations (p := .gin) (by decide : IsWord "auth") ?_ (by simp [authFile]) ?_
  · exact mem_imports_iff.2 (.inr ⟨authenticateFunction, by simp [authFile], by decide⟩)
  · have hjwt : Importable s .jwt := ⟨mem_outsidePackages_iff.2 (by simp [h]), by simp⟩
    have huses : (authFile.declarations.flatMap (·.uses)).all ([jwt] ++ commonPackages).contains = true := by decide
    exact fun d hd p hp => importable_of_all _ (forall_mem_singleton.2 hjwt) huses p
      (mem_flatMap.2 ⟨d, hd, hp⟩)

/-- The routes for registering and logging in hash passwords only with a database to keep them. -/
theorem importsWithin_authRoutesFile (settings : Settings) {engine : Option Engine} (hengine : engine.isSome → s.hasDatabase)
    (h : s.tokenAuth) : ImportsWithin s (authRoutesFile settings engine) := by
  refine importsWithin_of_declarations (p := .gin) (by decide : IsWord "routes") ?_ (by simp [authRoutesFile]) ?_
  · exact mem_imports_iff.2 (.inr ⟨registerAuthFunction, mem_cons_self, by decide⟩)
  · cases engine with
    | none =>
      have huses : ((authRoutesFile settings none).declarations.flatMap (·.uses)).all commonPackages.contains = true := rfl
      exact fun d hd p hp => importable_of_common huses p (mem_flatMap.2 ⟨d, hd, hp⟩)
    | some e =>
      have hextra : ∀ p ∈ [bcrypt, .own "auth", .own "db"], Importable s p := by
        simp only [forall_mem_cons]
        exact ⟨⟨mem_outsidePackages_iff.2 (by simp [h]), fun _ => hengine rfl⟩, .inr (.inr ⟨rfl, h⟩),
          .inr (.inl ⟨rfl, hengine rfl⟩), by simp⟩
      have huses : ((authRoutesFile settings (some e)).declarations.flatMap (·.uses)).all
          ([bcrypt, .own "auth", .own "db"] ++ commonPackages).contains = true := by
        cases e <;> rfl
      exact fun d hd p hp => importable_of_all _ hextra huses p (mem_flatMap.2 ⟨d, hd, hp⟩)

theorem importsWithin_indexFile {hasEngine : Bool} (h : hasEngine → s.hasDatabase) (groups : List NamedGroup) :
    ImportsWithin s (indexFile s hasEngine groups) := by
  refine importsWithin_of_declarations (p := .gin) (by decide : IsWord "routes") ?_ (by simp [indexFile]) ?_
  · exact mem_imports_iff.2 (.inr ⟨_, mem_cons_self, by simp [function]⟩)
  · refine forall_mem_singleton.2 (forall_mem_append.2 ⟨importable_of_common (by decide), ?_⟩)
    exact importable_ownDatabase h

theorem importable_handlerFunction (hdb : s.hasDatabase) {e : Engine} {n : NamedRoute} {d : Declaration}
    (h : handlerFunction? e n = some d) : ∀ p ∈ d.uses, Importable s p := by
  obtain ⟨b, -, rfl⟩ := Option.map_eq_some_iff.1 h
  have hown : ∀ p ∈ [own "db"], Importable s p := forall_mem_singleton.2 (.inr (.inl ⟨rfl, hdb⟩))
  refine forall_mem_append.2 ⟨importable_of_common (by decide), forall_mem_append.2 ⟨hown, ?_⟩⟩
  intro p hp
  split at hp
  · have hsql : ∀ p ∈ [sql], Importable s p := importable_of_common (by decide)
    exact hsql p hp
  · cases hp

theorem importable_registerFunction {g : NamedGroup} {entries : List Registration} {d : Declaration}
    (hentries : ∀ r ∈ entries, r.guarded → s.tokenAuth) (h : registerFunction? g entries = some d) :
    ∀ p ∈ d.uses, Importable s p := by
  obtain ⟨lines, -, rfl⟩ := Option.map_eq_some_iff.1 h
  refine forall_mem_cons.2 ⟨importable_of_mem_common mem_cons_self, ?_⟩
  intro p hp
  split at hp
  · rename_i hguarded
    obtain ⟨r, hr, hguarded⟩ := any_eq_true.1 hguarded
    rw [mem_singleton.1 hp]
    exact .inr (.inr ⟨rfl, hentries r hr hguarded⟩)
  · cases hp

theorem gin_mem_uses_registerFunction {g : NamedGroup} {entries : List Registration} {d : Declaration}
    (h : registerFunction? g entries = some d) : .gin ∈ d.uses := by
  obtain ⟨lines, -, rfl⟩ := Option.map_eq_some_iff.1 h
  exact mem_cons_self

theorem importsWithin_groupFile {engine : Option Engine} (hengine : engine.isSome → s.hasDatabase) {g : NamedGroup}
    (h : groupFile? s engine g = some f) : ImportsWithin s f := by
  cases engine with
  | none =>
    rw [groupFile?] at h
    obtain ⟨d, hd, rfl⟩ := Option.map_eq_some_iff.1 h
    refine importsWithin_of_declarations (p := .gin) (by decide : IsWord "routes") ?_ (by simp) ?_
    · exact mem_imports_iff.2 (.inr ⟨d, mem_cons_self, gin_mem_uses_registerFunction hd⟩)
    · exact forall_mem_singleton.2 (importable_registerFunction (by simp) hd)
  | some e =>
    rw [groupFile?] at h
    obtain ⟨d, hd, rfl⟩ := Option.map_eq_some_iff.1 h
    refine importsWithin_of_declarations (p := .gin) (by decide : IsWord "routes") ?_ (by simp) ?_
    · exact mem_imports_iff.2 (.inr ⟨d, mem_cons_self, gin_mem_uses_registerFunction hd⟩)
    · refine forall_mem_cons.2 ⟨importable_registerFunction ?_ hd, ?_⟩
      · -- Only routes of a service with tokens are guarded.
        intro r hr hguarded
        obtain ⟨n, -, rfl⟩ := mem_map.1 hr
        exact (Bool.and_eq_true_iff.1 hguarded).1
      · intro handler hhandler
        obtain ⟨n, -, hn⟩ := mem_filterMap.1 hhandler
        exact importable_handlerFunction (hengine rfl) hn

end Files

/-! ### The files of a run -/

theorem path_ne_module {g : Generator} (htask : task ∈ g.tasks) : task.path ≠ "go.mod" := by
  simp only [tasks, mem_append, mem_cons, not_mem_nil, or_false, mem_map] at htask
  rcases htask with (rfl | rfl | rfl | rfl | rfl) | ⟨group, -, rfl⟩
  · exact (by decide : "app.go" ≠ "go.mod")
  · exact (by decide : "db/db.go" ≠ "go.mod")
  · exact (by decide : "auth/auth.go" ≠ "go.mod")
  · exact (by decide : "routes/auth.go" ≠ "go.mod")
  · exact (by decide : "routes/index.go" ≠ "go.mod")
  · intro hpath
    have hhead := congrArg (fun path => path.toList.head?) hpath
    simp [groupPath] at hhead

theorem cutLast?_directory (name : String) {file : String} (hfile : '/' ∉ file.toList) :
    cutLast? '/' (name ++ "/" ++ file).toList = some (name.toList, file.toList) := by
  rw [String.append_assoc, String.toList_append, String.toList_append]
  exact cutLast?_of_notMem hfile

theorem mem_ownPackages (settings : Settings) {as : List Artifact} (file : String) (hfile : '/' ∉ file.toList)
    (hpath : name ++ "/" ++ file ∈ as.map Artifact.path) : settings.packagePath name ∈ ownPackages settings as := by
  obtain ⟨a, ha, hpath⟩ := mem_map.1 hpath
  refine mem_filterMap.2 ⟨a, ha, Option.map_eq_some_iff.2 ⟨(name.toList, file.toList), ?_, ?_⟩⟩
  · rw [hpath, cutLast?_directory name hfile]
  · rw [String.ofList_toList]

namespace GeneratedFrom

variable {settings : Settings} {s : Service} {g : Generator} {as : List Artifact} (h : GeneratedFrom settings s g as)

include h

/-- Every file of the run imports what it may. -/
theorem importsWithin (htask : task ∈ g.tasks) (hsource : task.source = .ok (some f)) : ImportsWithin s f := by
  obtain ⟨rfl, -, htarget, hsome⟩ := of_ofService h.generator
  have hengine : g.target.isSome → g.service.hasDatabase := fun hone => hsome ▸ hone
  simp only [tasks, mem_append, mem_cons, not_mem_nil, or_false, mem_map] at htask
  rcases htask with (rfl | rfl | rfl | rfl | rfl) | ⟨group, -, rfl⟩
  · obtain rfl : appFile g.service g.target.isSome = f := Option.some.inj (Except.ok.inj hsource)
    rw [hsome]
    exact importsWithin_appFile
  · simp only [databaseSource] at hsource
    cases he : g.target with
    | none => simp [he] at hsource
    | some e =>
      rw [he] at hsource htarget
      cases hc : e.connection g.service.database.url with
      | error _ => simp [hc] at hsource
      | ok c =>
        simp only [hc, Except.ok.injEq, Option.some.injEq] at hsource
        exact hsource ▸ importsWithin_databaseFile htarget.symm c _
  · simp only [Except.ok.injEq, Option.ite_none_right_eq_some, Option.some.injEq] at hsource
    exact hsource.2 ▸ importsWithin_authFile hsource.1
  · simp only [Except.ok.injEq, Option.ite_none_right_eq_some, Option.some.injEq] at hsource
    exact hsource.2 ▸ importsWithin_authRoutesFile _ hengine hsource.1
  · obtain rfl := Option.some.inj (Except.ok.inj hsource)
    exact importsWithin_indexFile hengine g.groups
  · cases hfile : groupFile? g.service g.target group with
    | none => simp [hfile] at hsource
    | some file =>
      simp only [hfile, Except.ok.injEq, Option.some.injEq] at hsource
      exact hsource ▸ importsWithin_groupFile hengine hfile

/-- The imports of an artifact, as its text has them. -/
theorem importPaths?_artifact {a : Artifact} (htask : task ∈ g.tasks) (hsource : task.source = .ok (some f))
    (hcontent : f.render? settings = some a.content) :
    ∃ paths, (a.code? settings).bind importPaths? = some paths ∧
      ∀ path, path ∈ paths ↔ ∃ p ∈ f.imports, path = ofString (p.path settings) := by
  have hwithin := h.importsWithin htask hsource
  obtain ⟨header, code, paths, hheader, hcode, hpaths, hmem⟩ :=
    importPaths?_render hwithin.isWord hwithin.imports_ne_nil hcontent
  exact ⟨paths, by rw [Artifact.code?_eq_some hheader hcode]; exact hpaths, hmem⟩

/-- **What is imported** is what the files of the run use. -/
theorem imports_iff {path : Octets} :
    Imports settings as path ↔ ∃ task ∈ g.tasks, ∃ f, task.source = .ok (some f) ∧
      ∃ p ∈ f.imports, path = ofString (p.path settings) := by
  obtain ⟨stopped, has⟩ := h.artifacts
  have hsettings := (of_ofService h.generator).2.1
  constructor
  · rintro ⟨a, ha, hne, paths, hpaths, hpath⟩
    rcases (mem_artifacts_iff has).1 ha with ⟨task, htask, hrender⟩ | rfl
    · obtain ⟨f, hsource, hcontent, -⟩ := render_eq_ok_some_iff.1 hrender
      rw [hsettings] at hcontent
      obtain ⟨paths', hpaths', hmem⟩ := h.importPaths?_artifact htask hsource hcontent
      obtain rfl : paths = paths' := Option.some.inj (hpaths.symm.trans hpaths')
      exact ⟨task, htask, f, hsource, (hmem path).1 hpath⟩
    · exact absurd rfl hne
  · rintro ⟨task, htask, f, hsource, hp⟩
    obtain ⟨a, ha, hpath, hcontent⟩ := h.exists_artifact htask hsource
    obtain ⟨paths, hpaths, hmem⟩ := h.importPaths?_artifact htask hsource hcontent
    exact ⟨a, ha, hpath ▸ path_ne_module htask, paths, hpaths, (hmem path).2 hp⟩

/-! ### Packages of the service -/

/-- The directory of an artifact, and whether there is one. -/
theorem cutLast?_path {a : Artifact} (ha : a ∈ as) :
    cutLast? '/' a.path.toList = none ∨ ∃ file name, a.path = name ++ "/" ++ file ∧ '/' ∉ file.toList ∧
      name ∈ ["db", "auth", "routes"] := by
  obtain ⟨stopped, has⟩ := h.artifacts
  rcases (artifactSet_of_artifacts has).mem_knownPaths_or ha with hpath | ⟨file, hfile, hpath⟩
  · simp only [knownPaths, mem_cons, not_mem_nil, or_false] at hpath
    rcases hpath with hpath | hpath | hpath | hpath | hpath | hpath
    · exact .inl (by rw [hpath]; decide)
    · exact .inr ⟨"db.go", "db", hpath, by decide, by decide⟩
    · exact .inr ⟨"auth.go", "auth", hpath, by decide, by decide⟩
    · exact .inr ⟨"auth.go", "routes", hpath, by decide, by decide⟩
    · exact .inr ⟨"index.go", "routes", hpath, by decide, by decide⟩
    · exact .inl (by rw [hpath]; decide)
  · exact .inr ⟨file, "routes", hpath, hfile.slash_notMem, by decide⟩

/-- The packages of the service are among three. -/
theorem of_mem_ownPackages {path : String} (hpath : path ∈ ownPackages settings as) :
    ∃ name ∈ ["db", "auth", "routes"], path = settings.packagePath name := by
  obtain ⟨a, ha, hmap⟩ := mem_filterMap.1 hpath
  obtain ⟨place, hcut, rfl⟩ := Option.map_eq_some_iff.1 hmap
  rcases h.cutLast?_path ha with hnone | ⟨file, name, heq, hfile, hname⟩
  · rw [hnone] at hcut
    cases hcut
  · rw [heq, cutLast?_directory name hfile] at hcut
    obtain rfl := Option.some.inj hcut
    exact ⟨name, hname, by rw [String.ofList_toList]⟩

/-- The packages of the service that a file may import are there. -/
theorem own_mem_ownPackages (hname : Importable s (.own name)) :
    settings.packagePath name ∈ ownPackages settings as := by
  obtain ⟨stopped, has⟩ := h.artifacts
  have hset := artifactSet_of_artifacts has
  obtain ⟨rfl, -⟩ := of_ofService h.generator
  rcases hname with rfl | ⟨rfl, hdb⟩ | ⟨rfl, htokens⟩
  · refine mem_ownPackages settings "index.go" (by decide) ?_
    exact hset.paths_perm.mem_iff.2 (by simp)
  · exact mem_ownPackages settings "db.go" (by decide) (hset.database_iff.2 hdb)
  · exact mem_ownPackages settings "auth.go" (by decide) (hset.tokens_iff.2 htokens)

end GeneratedFrom

/-! ### Owners -/

/-- All packages that have to be fetched. -/
def fetchedPackages : List Package :=
  [.gin, .cors, .static, .godotenv, .jwt, .bcrypt, .driver .mysql, .driver .mssql]

theorem mem_fetchedPackages (h : p.owner? = some r) : p ∈ fetchedPackages := by
  cases p with
  | standard path => cases h
  | own name => cases h
  | driver e => cases e <;> decide
  | _ => decide

/-- The path of a fetched package does not depend on the settings. -/
theorem path_of_mem_fetchedPackages (h : p ∈ fetchedPackages) (settings : Settings) :
    p.path settings = p.path {} := by
  simp only [fetchedPackages, mem_cons, not_mem_nil, or_false] at h
  rcases h with rfl | rfl | rfl | rfl | rfl | rfl | rfl | rfl <;> rfl

/-- Of the modules, the owner of a package is the only one that owns its path. -/
theorem owns_iff_of_owner {q : Package} {t : Requirement} (hp : p.owner? = some r) (hq : q.owner? = some t)
    (settings : Settings) : t.Owns (ofString (p.path settings)) ↔ p = q := by
  have hall : ∀ p ∈ fetchedPackages, ∀ q ∈ fetchedPackages, ∀ t ∈ q.owner?,
      t.Owns (ofString (p.path {})) ↔ p = q := by decide +kernel
  rw [path_of_mem_fetchedPackages (mem_fetchedPackages hp)]
  exact hall p (mem_fetchedPackages hp) q (mem_fetchedPackages hq) t hq

/-- A fetched package is no package of the service, whatever its module is called: it ends in another way. -/
theorem path_ne_packagePath (hp : p ∈ fetchedPackages) (settings : Settings)
    (hname : name ∈ ["db", "auth", "routes"]) :
    ofString (p.path settings) ≠ ofString (settings.packagePath name) := by
  have hall : ∀ p ∈ fetchedPackages, ∀ name ∈ ["db", "auth", "routes"],
      ¬ ofString ("/" ++ name) <:+ ofString (p.path {}) := by decide +kernel
  intro heq
  refine hall p hp name hname ⟨ofString settings.modulePath, ?_⟩
  rw [← path_of_mem_fetchedPackages hp settings, heq, Settings.packagePath, String.append_assoc,
    ofString_append settings.modulePath]

theorem isDotted_of_mem_fetchedPackages (hp : p ∈ fetchedPackages) (settings : Settings) :
    isDotted (ofString (p.path settings)) := by
  have hall : ∀ p ∈ fetchedPackages, isDotted (ofString (p.path {})) := by decide +kernel
  rw [path_of_mem_fetchedPackages hp]
  exact hall p hp

/-! ### Requirements -/

theorem mem_requirements_iff {s : Service} : r ∈ requirements s ↔ ∃ p ∈ outsidePackages s, p.owner? = some r := by
  rw [requirements, (mergeSort_perm _ _).mem_iff, mem_filterMap]

theorem exists_owner {s : Service} (hp : p ∈ outsidePackages s) : ∃ r, p.owner? = some r := by
  rcases mem_outsidePackages_iff.1 hp with rfl | ⟨rfl, -⟩ | ⟨rfl, -⟩ | ⟨rfl, -⟩ | ⟨rfl | rfl, -⟩ | ⟨e, -, rfl⟩
  any_goals exact ⟨_, rfl⟩
  cases e <;> exact ⟨_, rfl⟩

theorem nodup_owners (s : Service) : (((outsidePackages s).filterMap owner?).map Requirement.path).Nodup := by
  have hpart : ∀ (c : Bool) (ps : List Package), (if c then ps else []).Sublist ps := by
    intro c ps
    cases c
    · exact nil_sublist ps
    · exact Sublist.refl ps
  have henv : (if s.envFile = "" then [] else [godotenv]).Sublist [godotenv] := by
    split
    · exact nil_sublist _
    · exact Sublist.refl _
  have hsub : (outsidePackages s).Sublist ([gin] ++ [cors] ++ [static] ++ [godotenv] ++
      [jwt, bcrypt] ++ ((Engine.ofName? s.database.dialect).map driver).toList) := by
    refine Sublist.append ?_ (Sublist.refl _)
    refine Sublist.append ?_ (hpart _ _)
    refine Sublist.append ?_ henv
    refine Sublist.append ?_ (hpart _ _)
    exact Sublist.append (Sublist.refl _) (hpart _ _)
  refine ((hsub.filterMap owner?).map Requirement.path).nodup ?_
  cases Engine.ofName? s.database.dialect with
  | none => decide
  | some e => cases e <;> decide

/-- **In order.** The paths of the requirements increase. -/
theorem pairwise_lt_requirements (s : Service) : ((requirements s).map Requirement.path).Pairwise (· < ·) := by
  refine pairwise_lt_of_sorted ?_ (pairwise_mergeSort_before Requirement.path _)
  exact (((mergeSort_perm _ _).map _).nodup_iff).2 (nodup_owners s)

theorem version_ne_empty {s : Service} (h : r ∈ requirements s) : r.version ≠ "" := by
  have hall : ∀ p ∈ fetchedPackages, ∀ r ∈ p.owner?, r.version ≠ "" := by decide
  obtain ⟨p, -, hr⟩ := mem_requirements_iff.1 h
  exact hall p (mem_fetchedPackages hr) r hr

theorem intercalate_append_close (lines : List String) :
    "\n".intercalate (lines ++ [")", ""]) = String.join (lines.map (· ++ "\n")) ++ ")\n" := by
  induction lines with
  | nil => rfl
  | cons line rest ih =>
    have hne : rest ++ [")", ""] ≠ [] := by simp
    obtain ⟨next, others, hothers⟩ := exists_cons_of_ne_nil hne
    rw [cons_append, hothers, String.intercalate_cons_cons, ← hothers, ih, map_cons, String.join_cons]
    simp only [String.append_assoc]

theorem path_eq_crypto_iff (h : p.owner? = some r) : r.path = "golang.org/x/crypto" ↔ p = .bcrypt := by
  have hall : ∀ p ∈ fetchedPackages, ∀ r ∈ p.owner?, r.path = "golang.org/x/crypto" ↔ p = .bcrypt := by decide
  exact hall p (mem_fetchedPackages h) r h

theorem moduleFile_eq (settings : Settings) (s : Service) :
    moduleFile settings s = "module " ++ settings.modulePath ++ "\n\ngo " ++ settings.goVersion ++ "\n\nrequire (\n" ++
      String.join ((requirements s).map fun r => "\t" ++ r.path ++ " " ++ r.version ++ "\n") ++ ")\n" := by
  have hrow : ∀ r : Requirement, indentLine (r.path ++ " " ++ r.version) ++ "\n" =
      "\t" ++ r.path ++ " " ++ r.version ++ "\n" := by
    intro r
    have hne : r.path ++ " " ++ r.version ≠ "" := by
      intro hempty
      have hblank := (String.append_eq_empty_iff.1 (String.append_eq_empty_iff.1 hempty).1).2
      exact absurd hblank (by decide)
    rw [indentLine, if_neg hne]
    simp only [String.append_assoc]
  have hrows : (indent ((requirements s).map fun r => r.path ++ " " ++ r.version)).map (· ++ "\n") =
      (requirements s).map fun r => "\t" ++ r.path ++ " " ++ r.version ++ "\n" := by
    rw [indent, map_map, map_map]
    exact map_congr_left fun r _ => hrow r
  rw [moduleFile, intercalate_append_close, map_append, hrows, String.join_append, ← String.toList_inj]
  simp only [map_cons, map_nil, String.join_cons, String.join_nil, String.toList_append, append_assoc]
  rfl

/-! ### The account -/

/-- **The account** of a module file with the given requirements. -/
structure RequirementAccount (settings : Settings) (s : Service) (as : List Artifact) (rs : List Requirement) :
    Prop where
  /-- The module file is written from the settings and lists the requirements, -/
  text : (⟨"go.mod", "module " ++ settings.modulePath ++ "\n\ngo " ++ settings.goVersion ++ "\n\nrequire (\n" ++
    String.join (rs.map fun r => "\t" ++ r.path ++ " " ++ r.version ++ "\n") ++ ")\n"⟩ : Artifact) ∈ as
  /-- by path, each path once -/
  increasing : (rs.map Requirement.path).Pairwise (· < ·)
  /-- and with a version. -/
  versioned : ∀ r ∈ rs, r.version ≠ ""
  /-- The imports of every other file can be read. -/
  readable : ∀ a ∈ as, a.path ≠ "go.mod" → ∃ paths, (a.code? settings).bind importPaths? = some paths
  /-- A package from outside has one required module that owns it. -/
  required : ∀ path, ImportsOutside settings as path → ∃! r, r ∈ rs ∧ r.Owns path
  /-- A required module owns such a package, unless it is the one for hashing passwords and there is no database. -/
  imported_iff : ∀ r ∈ rs, (∃ path, ImportsOutside settings as path ∧ r.Owns path) ↔
    (r.path = "golang.org/x/crypto" → s.hasDatabase)

namespace GeneratedFrom

variable {settings : Settings} {s : Service} {g : Generator} {as : List Artifact} (h : GeneratedFrom settings s g as)

include h

/-- What is imported from outside is fetched for the service. -/
theorem of_importsOutside {path : Octets} (hpath : ImportsOutside settings as path) :
    ∃ p r, p ∈ outsidePackages s ∧ (p = .bcrypt → s.hasDatabase) ∧ p.owner? = some r ∧
      path = ofString (p.path settings) := by
  obtain ⟨himports, hdotted, hown⟩ := hpath
  obtain ⟨task, htask, f, hsource, p, hp, rfl⟩ := h.imports_iff.1 himports
  have hfetched : p ∈ outsidePackages s ∧ (p = .bcrypt → s.hasDatabase) := by
    have himportable := (h.importsWithin htask hsource).importable p hp
    cases p with
    | standard path => exact absurd hdotted (Bool.eq_false_iff.1 himportable)
    | own name => exact absurd (mem_map_of_mem (h.own_mem_ownPackages himportable)) hown
    | _ => exact himportable
  obtain ⟨r, hr⟩ := exists_owner hfetched.1
  exact ⟨p, r, hfetched.1, hfetched.2, hr, rfl⟩

/-- What is fetched for the service is imported, passwords without a database apart. -/
theorem imports_of_outside (hp : p ∈ outsidePackages s) (hbcrypt : p = .bcrypt → s.hasDatabase) :
    Imports settings as (ofString (p.path settings)) := by
  obtain ⟨rfl, -, htarget, hsome⟩ := of_ofService h.generator
  have happ : ⟨"app.go", .ok (some (appFile g.service g.target.isSome))⟩ ∈ g.tasks :=
    mem_append_left _ mem_cons_self
  have hmain : ∀ p ∈ (mainFunction g.service g.target.isSome).uses,
      Imports settings as (ofString (p.path settings)) := by
    intro p hp
    refine h.imports_iff.2 ⟨_, happ, _, rfl, p, mem_imports_iff.2 (.inr ⟨_, ?_, hp⟩), rfl⟩
    exact mem_append_left _ (mem_append_left _ mem_cons_self)
  -- The middleware of a kind puts its package into the chain.
  have hchain : ∀ kind p, (∀ m : Middleware, m.kind = kind → p ∈ (middlewareLine m).2) → g.service.hasMiddleware kind →
      Imports settings as (ofString (p.path settings)) := by
    intro kind p hline hhas
    obtain ⟨m, hm, hkind⟩ := any_eq_true.1 hhas
    refine hmain p (mem_append_right _ (mem_flatMap.2 ⟨_, mem_map_of_mem hm, ?_⟩))
    exact hline m (beq_iff_eq.1 hkind)
  rcases mem_outsidePackages_iff.1 hp with rfl | ⟨rfl, hhas⟩ | ⟨rfl, hhas⟩ | ⟨rfl, henv⟩ | ⟨rfl | rfl, htokens⟩ | ⟨e, he, rfl⟩
  · exact hmain _ (by simp [mainFunction, function])
  · exact hchain .cors _ (fun m hm => by simp [middlewareLine, hm]) hhas
  · exact hchain .static _ (fun m hm => by simp [middlewareLine, hm]) hhas
  · exact hmain _ (by simp [mainFunction, function, henv])
  · have htask : ⟨"auth/auth.go", .ok (if g.service.tokenAuth then some authFile else none)⟩ ∈ g.tasks :=
      mem_append_left _ (by simp)
    refine h.imports_iff.2 ⟨_, htask, authFile, by rw [if_pos htokens], _, ?_, rfl⟩
    decide
  · -- Passwords are hashed by the routes for registering and logging in.
    obtain ⟨e, he⟩ := Option.isSome_iff_exists.1 (hsome.trans (hbcrypt rfl))
    have htask : ⟨"routes/auth.go", .ok (if g.service.tokenAuth then some (authRoutesFile g.settings g.target) else none)⟩
        ∈ g.tasks := mem_append_left _ (by simp)
    refine h.imports_iff.2 ⟨_, htask, authRoutesFile g.settings (some e), by rw [if_pos htokens, he], _, ?_, rfl⟩
    refine mem_imports_iff.2 (.inr ⟨registerHandler e, by simp [authRoutesFile], by simp [registerHandler, function]⟩)
  · have htask : ⟨"db/db.go", g.databaseSource⟩ ∈ g.tasks := mem_append_left _ (by simp)
    obtain ⟨c, hfile⟩ := h.exists_databaseSource (htarget.trans he)
    exact h.imports_iff.2 ⟨_, htask, _, hfile, _, mem_imports_iff.2 (.inl mem_cons_self), rfl⟩

theorem importsOutside_of_outside (hp : p ∈ outsidePackages s) (hbcrypt : p = .bcrypt → s.hasDatabase) :
    ImportsOutside settings as (ofString (p.path settings)) := by
  obtain ⟨r, hr⟩ := exists_owner hp
  have hfetched := mem_fetchedPackages hr
  refine ⟨h.imports_of_outside hp hbcrypt, isDotted_of_mem_fetchedPackages hfetched settings, ?_⟩
  intro hown
  obtain ⟨path, hpath, heq⟩ := mem_map.1 hown
  obtain ⟨name, hname, rfl⟩ := h.of_mem_ownPackages hpath
  exact path_ne_packagePath hfetched settings hname heq.symm

theorem requirementAccount : RequirementAccount settings s as (requirements s) where
  text := by
    obtain ⟨stopped, has⟩ := h.artifacts
    obtain ⟨rfl, rfl, -⟩ := of_ofService h.generator
    rw [← moduleFile_eq]
    exact (mem_artifacts_iff has).2 (.inr rfl)
  increasing := pairwise_lt_requirements s
  versioned := fun r hr => version_ne_empty hr
  readable := by
    intro a ha hne
    obtain ⟨stopped, has⟩ := h.artifacts
    obtain ⟨-, rfl, -⟩ := of_ofService h.generator
    rcases (mem_artifacts_iff has).1 ha with ⟨task, htask, hrender⟩ | rfl
    · obtain ⟨f, hsource, hcontent, -⟩ := render_eq_ok_some_iff.1 hrender
      obtain ⟨paths, hpaths, -⟩ := h.importPaths?_artifact htask hsource hcontent
      exact ⟨paths, hpaths⟩
    · exact absurd rfl hne
  required := by
    intro path hpath
    obtain ⟨p, r, hp, -, hr, rfl⟩ := h.of_importsOutside hpath
    refine ⟨r, ⟨mem_requirements_iff.2 ⟨p, hp, hr⟩, (owns_iff_of_owner hr hr settings).2 rfl⟩, ?_⟩
    rintro t ⟨ht, howns⟩
    obtain ⟨q, -, hq⟩ := mem_requirements_iff.1 ht
    obtain rfl := (owns_iff_of_owner hr hq settings).1 howns
    exact Option.some.inj (hq.symm.trans hr)
  imported_iff := by
    intro r hr
    obtain ⟨q, hq, howner⟩ := mem_requirements_iff.1 hr
    rw [path_eq_crypto_iff howner]
    constructor
    · rintro ⟨path, hpath, howns⟩
      obtain ⟨p, t, -, hbcrypt, ht, rfl⟩ := h.of_importsOutside hpath
      obtain rfl := (owns_iff_of_owner ht howner settings).1 howns
      exact hbcrypt
    · intro hbcrypt
      exact ⟨_, h.importsOutside_of_outside hq hbcrypt, (owns_iff_of_owner howner howner settings).2 rfl⟩

end GeneratedFrom

/-- **The module file and the imports.** Whenever the artifacts can be made, the module file lists its requirements in
    order, and each package that is imported from outside has one of them.  Each requirement is needed exactly when
    tokens come with a database. -/
theorem requirements_exact_iff (settings : Settings) (s : Service) (g : Generator) (stopped : Bool)
    (as : List Artifact) (hg : Generator.ofService settings s = .ok g) (has : g.artifacts stopped = .ok as) :
    ∃ rs, RequirementAccount settings s as rs ∧
      ((∀ r ∈ rs, ∃ path, ImportsOutside settings as path ∧ r.Owns path) ↔ (s.tokenAuth → s.hasDatabase)) := by
  have haccount := GeneratedFrom.requirementAccount ⟨hg, stopped, has⟩
  refine ⟨requirements s, haccount, ?_⟩
  constructor
  · intro hall htokens
    have hbcrypt : .bcrypt ∈ outsidePackages s := mem_outsidePackages_iff.2 (by simp [htokens])
    have hr := mem_requirements_iff.2 ⟨_, hbcrypt, rfl⟩
    exact (haccount.imported_iff _ hr).1 (hall _ hr) rfl
  · intro hdb r hr
    refine (haccount.imported_iff r hr).2 fun hpath => hdb ?_
    obtain ⟨q, hq, howner⟩ := mem_requirements_iff.1 hr
    obtain rfl := (path_eq_crypto_iff howner).1 hpath
    simpa using mem_outsidePackages_iff.1 hq

/-- A generator for a service that uses every package from outside. -/
def fullGenerator : Generator where
  service :=
    { middlewares := [⟨.cors, ""⟩, ⟨.static, "public"⟩, ⟨.logger, ""⟩]
      envFile := ".env"
      database := { dialect := "mssql" }
      auth := { enabled := true, strategy := Auth.jwt, guarded := ["/items"] }
      routes := [{ method := "GET", path := "/items", action := .getById, collection := "items" }] }
  settings := { modulePath := "example.com/shop", header := "" }
  engine := some .mssql

theorem requirements_fullGenerator :
    ∃ as, fullGenerator.artifacts false = .ok as ∧
      ∃ rs, RequirementAccount fullGenerator.settings fullGenerator.service as rs ∧
        ((∀ r ∈ rs, ∃ path, ImportsOutside fullGenerator.settings as path ∧ r.Owns path) ↔
          (fullGenerator.service.tokenAuth → fullGenerator.service.hasDatabase)) := by
  have hpath : IsRoutePath "/items" := ⟨"items".toList, by decide, all_eq_true.1 (by decide)⟩
  have hcollection : IsPlainWord "items" := ⟨by decide, all_eq_true.1 (by decide)⟩
  have hs : fullGenerator.service.WellFormed := { wellFormed_default with
    middlewares := by simp [fullGenerator, Middleware.WellFormed]
    dialect := .inr (.inr rfl)
    strategy := .inr rfl
    guarded := forall_mem_singleton.2 hpath
    guarded_nodup := nodup_singleton _
    routes := forall_mem_singleton.2 ⟨hpath, hcollection, by simp, by simp, by simp, by simp, by simp⟩ }
  obtain ⟨as, has⟩ := exists_artifacts hs (g := fullGenerator) rfl rfl fun h => absurd h.1 (by decide)
  exact ⟨as, has, requirements_exact_iff _ _ _ false as rfl has⟩

/-- A service with tokens and without a database. -/
def tokensOnly : Service where
  auth := { enabled := true, strategy := Auth.jwt }

/-- **A requirement that nothing needs.** With tokens and without a database, no generated file imports a package of
    the module for hashing passwords, and the module file requires it. -/
theorem not_imported_tokensOnly :
    ∃ as, Generator.artifacts { service := tokensOnly } false = .ok as ∧
      (⟨"go.mod", "module app\n\ngo 1.24\n\nrequire (\n\tgithub.com/gin-gonic/gin v1.10.1\n" ++
        "\tgithub.com/golang-jwt/jwt/v5 v5.3.0\n\tgolang.org/x/crypto v0.46.0\n)\n"⟩ : Artifact) ∈ as ∧
      ∀ path, ImportsOutside {} as path → ¬ (⟨"golang.org/x/crypto", "v0.46.0"⟩ : Requirement).Owns path := by
  have hs : tokensOnly.WellFormed := { wellFormed_default with strategy := .inr rfl }
  obtain ⟨header, hheader⟩ := exists_header?
  obtain ⟨as, has⟩ := exists_artifacts hs (g := { service := tokensOnly }) rfl hheader fun h => absurd h.1 (by decide)
  have haccount : RequirementAccount {} tokensOnly as (requirements tokensOnly) :=
    GeneratedFrom.requirementAccount ⟨rfl, false, has⟩
  have hrequirements : requirements tokensOnly = [⟨"github.com/gin-gonic/gin", "v1.10.1"⟩,
      ⟨"github.com/golang-jwt/jwt/v5", "v5.3.0"⟩, ⟨"golang.org/x/crypto", "v0.46.0"⟩] :=
    List.mergeSort_of_pairwise (by decide)
  rw [hrequirements] at haccount
  refine ⟨as, has, haccount.text, fun path hpath howns => ?_⟩
  exact absurd ((haccount.imported_iff _ (by simp)).1 ⟨path, hpath, howns⟩ rfl) (by decide)

end ServiceCompiler
