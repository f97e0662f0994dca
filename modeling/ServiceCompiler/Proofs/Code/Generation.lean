import ServiceCompiler.Compile
import ServiceCompiler.Proofs.Code.PlainFiles
import ServiceCompiler.Proofs.Sql.RemovedParameter

namespace ServiceCompiler

open Code Settings Compilation Generator ImportPath List

/-!
# Accepted sources are generated from

A source text that is accepted leads to artifacts, under all settings that are accepted and keep the header, unless
its connect URL makes the reader of data source names give up.

* `ImportPath.isImportChar_of_check`, `Service.WellFormed.isLed_identifiers`, `isPlain_of_makes` — whatever text of the
  source or of the settings gets into code, it fits the place it gets to: a path, a name or a comment.
* `Generator.exists_slots` — hence every file is rendered once the database package has its connection.
* `Service.GivesUp` — the services for which there is none, and `databaseSource_eq_error_iff`, which says so.
* `compiles_iff_not_givesUp` — the runs that succeed, and how the others end.
-/

/-! ### Module paths -/

namespace ImportPath

/-- Whether a character may stand in the path of an import: a visible one that the language does not set aside. -/
def isImportChar (c : Char) : Bool :=
  0x20 < c.toNat && c.toNat < 0x7f && !"!\"#$%&'()*,:;<=>?[\\]^\x60\x7b|\x7d".toList.contains c

theorem isImportChar_of_isPathChar {c : Char} (h : isPathChar c) : isImportChar c := by
  have hascii : c.toNat < 128 := by
    rw [isPathChar, Bool.or_eq_true, Bool.or_eq_true] at h
    rcases h with (h | h) | h
    · exact Text.toNat_lt_of_isWordChar (by simp [Text.isWordChar, h])
    · exact Text.toNat_lt_of_isWordChar (by simp [Text.isWordChar, h])
    · have hall : ("-._~+".toList.all fun c => c.toNat < 128) = true := by decide
      exact of_decide_eq_true (all_eq_true.1 hall c (by simpa using h))
  revert h
  exact Text.forall_ascii (P := fun c => isPathChar c → isImportChar c) (by decide +kernel) hascii

theorem isPathChar_of_checkElement {element : List Char} (h : checkElement element = .ok ()) :
    ∀ c ∈ element, isPathChar c := by
  rw [checkElement] at h
  split at h
  · cases h
  split at h
  · cases h
  split at h
  · cases h
  split at h
  · cases h
  · rename_i hnone
    intro c hc
    simpa using find?_eq_none.1 hnone c hc

/-- A module path that is accepted fits into an import. -/
theorem isImportChar_of_check {path : String} (h : check path = .ok ()) : ∀ c ∈ path.toList, isImportChar c := by
  have helements : (Text.splitOn '/' path.toList).forM checkElement = .ok () := by
    rw [check] at h
    split at h
    · cases h
    split at h
    · cases h
    split at h
    · cases h
    split at h
    · cases h
    · exact h
  intro c hc
  by_cases hslash : c = '/'
  · rw [hslash]
    decide
  · obtain ⟨piece, hpiece, hmem⟩ := Text.exists_mem_splitOn hc hslash
    exact isImportChar_of_isPathChar (isPathChar_of_checkElement (ok_of_forM helements hpiece) c hmem)

end ImportPath

/-- What settings that pass the check are like. -/
theorem Settings.bounds_of_check {s : Settings} (h : s.check = .ok ()) :
    ImportPath.check s.modulePath = .ok () ∧ (minCost ≤ s.bcryptCost ∧ s.bcryptCost ≤ maxCost) ∧ 1 ≤ s.workers := by
  cases hpath : ImportPath.check s.modulePath with
  | error e =>
    rw [check, hpath] at h
    cases h
  | ok u =>
    by_cases hcost : s.bcryptCost < minCost ∨ s.bcryptCost > maxCost
    · simp only [check, hpath, if_pos hcost] at h
      cases h
    by_cases hworkers : s.workers < 1
    · simp only [check, hpath, if_neg hcost, if_pos hworkers] at h
      cases h
    · exact ⟨rfl, by omega, by omega⟩

/-- Settings that are accepted have a module path that fits into an import. -/
theorem isImportChar_of_ofChanges {changes : List Change} {settings : Settings}
    (h : ofChanges changes = .ok settings) : ∀ c ∈ settings.modulePath.toList, isImportChar c := by
  obtain ⟨s, -, hrest⟩ := exists_ok_of_bind h
  obtain ⟨⟨⟩, hcheck, hreturn⟩ := exists_ok_of_bind hrest
  obtain rfl : s = settings := Except.ok.inj hreturn
  exact isImportChar_of_check (bounds_of_check hcheck).1

/-! ### The database package -/

/-- The service has a connect URL at which the reader of data source names gives up. -/
def Service.GivesUp (s : Service) : Prop := s.database.dialect = "mysql" ∧ NamesRemoved s.database.url

theorem ofName?_eq_mysql_iff {name : String} : Engine.ofName? name = some .mysql ↔ name = "mysql" := by
  constructor
  · intro h
    have hname := find?_some h
    exact (beq_iff_eq.1 hname).symm
  · rintro rfl
    rfl

namespace Generator

variable {g : Generator}

/-- The database package fails on no other services, and is fatal on these. -/
theorem databaseSource_eq_error_iff (htarget : g.target = Engine.ofName? g.service.database.dialect) {f : Failure} :
    g.databaseSource = .error f ↔ f = .crash ∧ g.service.GivesUp := by
  rw [databaseSource, Service.GivesUp, ← ofName?_eq_mysql_iff, ← htarget]
  cases g.target with
  | none => simp
  | some e =>
    dsimp only
    cases hc : e.connection g.service.database.url with
    | error d =>
      obtain ⟨rfl, -, hremoved⟩ := connection_eq_error_iff.1 hc
      simp [hremoved, eq_comm]
    | ok c =>
      refine ⟨fun h => absurd h (by simp), ?_⟩
      rintro ⟨-, he, hremoved⟩
      rw [connection_eq_error_iff.2 ⟨Option.some.inj he, rfl, hremoved⟩] at hc
      cases hc

/-! ### All files -/

/-- A file cannot be made for two reasons only. -/
theorem of_source_eq_error {task : SourceTask} (htask : task ∈ g.tasks) {f : Failure} (h : task.source = .error f) :
    g.databaseSource = .error f ∨ ∃ group ∈ g.groups, groupFile? g.service g.target group = none := by
  simp only [tasks, mem_append, mem_cons, not_mem_nil, or_false, mem_map] at htask
  rcases htask with (rfl | rfl | rfl | rfl | rfl) | ⟨group, hgroup, rfl⟩
  · cases h
  · exact .inl h
  · cases h
  · cases h
  · cases h
  · refine .inr ⟨group, hgroup, ?_⟩
    cases hfile : groupFile? g.service g.target group with
    | none => rfl
    | some file => simp [hfile] at h

theorem render_of_render? {path content : String} {file : SourceFile}
    (h : file.render? g.settings = some content) :
    g.render ⟨path, .ok (some file)⟩ = .ok (some ⟨path, content⟩) :=
  render_eq_ok_some_iff.2 ⟨file, rfl, h, rfl⟩

section WellFormed

variable (hs : g.service.WellFormed) {header : String} (hheader : header? g.settings.header = some header)

include hs hheader

/-- A file that can be made is rendered. -/
theorem exists_render {task : SourceTask} (htask : task ∈ g.tasks) {source : Option SourceFile}
    (hsource : task.source = .ok source) : ∃ slot, g.render task = .ok slot := by
  obtain ⟨path, taskSource⟩ := task
  obtain rfl : taskSource = .ok source := hsource
  cases source with
  | none => exact ⟨none, rfl⟩
  | some file =>
    obtain ⟨content, hcontent⟩ := (isPlain_of_makes hs (makes_iff.2 htask)).exists_render hheader
    exact ⟨_, render_of_render? hcontent⟩

/-- **Every file is rendered** once the database package can be made. -/
theorem exists_slots {source : Option SourceFile} (hdatabase : g.databaseSource = .ok source) :
    ∃ slots, g.tasks.mapM g.render = .ok slots := by
  apply exists_mapM_eq_ok
  intro task htask
  cases hsource : task.source with
  | ok source => exact exists_render hs hheader htask hsource
  | error f =>
    rcases of_source_eq_error htask hsource with h | ⟨group, hgroup, hnone⟩
    · rw [hdatabase] at h
      cases h
    · obtain ⟨file, hfile, -⟩ := exists_plain_groupFile hs hgroup g.target
      rw [hnone] at hfile
      cases hfile

/-- Only the main file is rendered before the database package, so a failure of that is the first one. -/
theorem mapM_render_eq_error {f : Failure} (hdatabase : g.databaseSource = .error f) :
    g.tasks.mapM g.render = .error f := by
  obtain ⟨content, hcontent⟩ := (isPlain_of_makes hs Makes.app).exists_render hheader
  rw [tasks, cons_append, mapM_cons, render_of_render? hcontent, cons_append, mapM_cons, render,
    hdatabase]
  rfl

end WellFormed

/-- A generator that is made for a service lacks nothing. -/
theorem checkReady_of_ofService {settings : Settings} {s : Service} (h : ofService settings s = .ok g) :
    g.checkReady = .ok () := by
  rw [ofService] at h
  split at h
  · rename_i hdb
    cases hname : Engine.ofName s.database.dialect with
    | error e =>
      rw [hname] at h
      cases h
    | ok e =>
      rw [hname] at h
      obtain rfl := Except.ok.inj h
      simp [checkReady, hdb]
      rfl
  · rename_i hdb
    obtain rfl := Except.ok.inj h
    simp [checkReady, hdb]
    rfl

section Artifacts

variable {settings : Settings} {s : Service} (hs : s.WellFormed) (hg : ofService settings s = .ok g) {header : String}
  (hheader : header? settings.header = some header)

include hs hg hheader

theorem exists_artifacts (hgoes : ¬ s.GivesUp) : ∃ as, g.artifacts false = .ok as := by
  obtain ⟨rfl, rfl, htarget, -⟩ := of_ofService hg
  obtain ⟨slots, hslots⟩ : ∃ slots, g.tasks.mapM g.render = .ok slots := by
    cases hdatabase : g.databaseSource with
    | ok source => exact exists_slots hs hheader hdatabase
    | error f => exact absurd ((databaseSource_eq_error_iff htarget).1 hdatabase).2 hgoes
  refine ⟨Artifact.sort (g.collected slots), ?_⟩
  rw [artifacts_eq_assemble]
  exact assemble_eq_ok_iff.2 ⟨checkReady_of_ofService hg, rfl, slots, hslots, rfl⟩

theorem artifacts_eq_crash (hgives : s.GivesUp) : g.artifacts false = .error .crash := by
  obtain ⟨rfl, rfl, htarget, -⟩ := of_ofService hg
  have hdatabase := (databaseSource_eq_error_iff htarget).2 ⟨rfl, hgives⟩
  rw [artifacts_eq_assemble, assemble, checkReady_of_ofService hg, mapM_render_eq_error hs hheader hdatabase]
  rfl

end Artifacts

end Generator

/-- A generator is made for every well-formed service. -/
theorem Service.WellFormed.exists_ofService {s : Service} (hs : s.WellFormed) (settings : Settings) :
    ∃ g, ofService settings s = .ok g := by
  by_cases hdb : s.hasDatabase
  · obtain ⟨e, he⟩ := exists_generator settings hs hdb
    exact ⟨_, he⟩
  · exact ⟨_, by rw [ofService, if_neg hdb]⟩

/-! ### Runs -/

/-- The header that settings have without a change of it. -/
def defaultHeader : String := ({} : Settings).header

theorem exists_header? : ∃ header, header? defaultHeader = some header :=
  Option.isSome_iff_exists.1 (by decide +kernel)

/-- Every text of a source or of the settings that gets into the code of a generator fits its place. -/
structure Generator.Fits (g : Generator) : Prop where
  /-- Module paths stand in imports, -/
  modulePath : ∀ c ∈ g.settings.modulePath.toList, isImportChar c
  /-- identifiers in declarations and calls, -/
  identifiers : ∀ group ∈ g.groups, ∀ x ∈ group.register :: group.handlers, Fragment.isName x.toList
  /-- methods behind a receiver, -/
  methods : ∀ group ∈ g.groups, ∀ r ∈ group.routes, Fragment.isName r.method.toList
  /-- and comments have one line, which the formatter leaves alone. -/
  comments : ∀ path file, g.Makes path file → ∀ d ∈ file.declarations, ∀ text ∈ d.doc,
    '\n' ∉ text.toList ∧ docComment? text = some ("// " ++ text ++ "\n")

theorem fits_of_ofService {changes : List Change} {settings : Settings}
    (hsettings : ofChanges changes = .ok settings) {s : Service} (hs : s.WellFormed) {g : Generator}
    (hg : ofService settings s = .ok g) : g.Fits := by
  obtain ⟨rfl, rfl, -, -⟩ := of_ofService hg
  exact {
    modulePath := isImportChar_of_ofChanges hsettings
    identifiers := fun group hgroup x hx => (hs.isLed_identifiers hgroup x hx).isName
    methods := fun group hgroup r hr => (hs.route_of_mem hgroup hr).isName_method
    comments := fun path file hfile d hd => (isPlain_of_makes hs hfile d hd).doc }

/-- What a run does once source and settings are accepted. -/
theorem ofSource_eq_artifacts {source : String} {b : Build} (hb : Build.ofSource source = .ok b)
    {changes : List Change} {settings : Settings} (hsettings : ofChanges changes = .ok settings)
    {g : Generator} (hg : ofService settings b.service = .ok g) (stopped : Bool) :
    ofSource changes stopped source =
      ((g.artifacts stopped).mapError (.under "compiler")).map fun artifacts =>
        { service := b.service, warnings := b.warnings, settings, groups := g.groups, artifacts } := by
  rw [ofSource, hb]
  show ofBuild changes stopped b = _
  rw [ofBuild, hsettings, mapError_ok]
  show (Except.mapError Failure.directive (ofService settings b.service) >>= _) = _
  rw [hg]
  show ((g.artifacts stopped).mapError (Failure.under "compiler") >>= _) = _
  cases (g.artifacts stopped).mapError (Failure.under "compiler") <;> rfl

section Run

variable {source : String} {b : Build} (hb : Build.ofSource source = .ok b) {changes : List Change}
  {settings : Settings} (hsettings : ofChanges changes = .ok settings)
  (hheader : settings.header = defaultHeader)

include hb hsettings hheader

/-- A run whose connect URL is not at fault succeeds. -/
theorem exists_compilation (hgoes : ¬ b.service.GivesUp) : ∃ c, ofSource changes false source = .ok c := by
  have hs := wellFormed_of_ofSource hb
  obtain ⟨g, hg⟩ := hs.exists_ofService settings
  obtain ⟨header, hheader⟩ := hheader ▸ exists_header?
  obtain ⟨as, has⟩ := exists_artifacts hs hg hheader hgoes
  rw [ofSource_eq_artifacts hb hsettings hg, has]
  exact ⟨_, rfl⟩

/-- A run whose connect URL is at fault does not survive it. -/
theorem ofSource_eq_crash (hgives : b.service.GivesUp) : ofSource changes false source = .error .crash := by
  have hs := wellFormed_of_ofSource hb
  obtain ⟨g, hg⟩ := hs.exists_ofService settings
  obtain ⟨header, hheader⟩ := hheader ▸ exists_header?
  rw [ofSource_eq_artifacts hb hsettings hg, artifacts_eq_crash hs hg hheader hgives]
  rfl

/-- **Accepted sources are generated from.** For every source and all settings that are accepted, with the header that
    settings have by default, there is a generator that lacks nothing, all its texts fit their places, every group has
    its file, and every file is rendered.  The run gives its artifacts, unless the connect URL makes the reader of
    data source names give up; the run does not survive that. -/
theorem compiles_iff_not_givesUp :
    (∃ g, Generator.ofService settings b.service = .ok g ∧ g.checkReady = .ok () ∧ g.Fits ∧
      (∀ group ∈ g.groups, ∃ file, g.Makes (Generator.groupPath group) file) ∧
      ∀ path file, g.Makes path file → ∃ content, file.render? settings = some content) ∧
    ((∃ c, Compilation.ofSource changes false source = .ok c) ↔ ¬ b.service.GivesUp) ∧
    (b.service.GivesUp → Compilation.ofSource changes false source = .error .crash) := by
  have hs := wellFormed_of_ofSource hb
  refine ⟨?_, ⟨?_, exists_compilation hb hsettings hheader⟩, ofSource_eq_crash hb hsettings hheader⟩
  · obtain ⟨g, hg⟩ := hs.exists_ofService settings
    have hfits := fits_of_ofService hsettings hs hg
    have hready := Generator.checkReady_of_ofService hg
    refine ⟨g, hg, hready, hfits, ?_, ?_⟩
    · intro group hgroup
      obtain ⟨hservice, -⟩ := of_ofService hg
      obtain ⟨file, hfile, -⟩ := exists_plain_groupFile (hservice ▸ hs) hgroup g.target
      exact ⟨file, .group hgroup hfile⟩
    · intro path file hfile
      obtain ⟨hservice, rfl, -⟩ := of_ofService hg
      obtain ⟨header, hheader⟩ := hheader ▸ exists_header?
      exact (isPlain_of_makes (hservice ▸ hs) hfile).exists_render hheader
  · rintro ⟨c, hc⟩ hgives
    rw [ofSource_eq_crash hb hsettings hheader hgives] at hc
    cases hc

end Run

/-- A source whose connect URL names the removed parameter, but as a URL. -/
def strictUrlSource : String :=
  "whisper: db type mysql\nwhisper: connect to 'mysql://u:p@h/db?strict=1'\n" ++
  "when asked for /a_b/:id, retrieve item by id from 'if'"

def strictUrlService : Service where
  database := { dialect := "mysql", url := "mysql://u:p@h/db?strict=1" }
  routes := [{ method := "GET", path := "/a_b/:id", action := .getById, collection := "if" }]

theorem compiles_strictUrl :
    Build.ofSource strictUrlSource = .ok { service := strictUrlService } ∧
      ∃ c, Compilation.ofSource [.modulePath "example.com/a"] false strictUrlSource = .ok c := by
  have hb : Build.ofSource strictUrlSource = .ok { service := strictUrlService } := by decide +kernel
  have hsettings : Settings.ofChanges [.modulePath "example.com/a"] = .ok { modulePath := "example.com/a" } :=
    rfl
  refine ⟨hb, (compiles_iff_not_givesUp hb hsettings rfl).2.1.2 ?_⟩
  rintro ⟨-, hremoved⟩
  have hurl : (Url.parse? (Text.Octets.ofString strictUrlService.database.url)).any
      (·.scheme = Text.Octets.ofString "mysql") = true := by decide +kernel
  have hnone := hremoved.notUrl
  cases hparse : Url.parse? (Text.Octets.ofString strictUrlService.database.url) with
  | none => simp [hparse] at hurl
  | some u => simp_all

/-- A data source name with the removed parameter, which the run does not survive. -/
def strictNameSource : String := "whisper: db type mysql\nwhisper: connect to 'u:p@tcp(h)/db?strict=1'\n"

theorem crashes_strictName :
    (∃ b, Build.ofSource strictNameSource = .ok b) ∧ Compilation.ofSource [] false strictNameSource = .error .crash := by
  have hb : Build.ofSource strictNameSource =
      .ok { service := { database := { dialect := "mysql", url := "u:p@tcp(h)/db?strict=1" } } } := by decide +kernel
  have hconnection : (Engine.connection .mysql "u:p@tcp(h)/db?strict=1").toBool = false := by decide +kernel
  have hsettings : Settings.ofChanges [] = .ok {} := rfl
  refine ⟨⟨_, hb⟩, ofSource_eq_crash hb hsettings rfl ⟨rfl, ?_⟩⟩
  cases hc : Engine.connection .mysql "u:p@tcp(h)/db?strict=1" with
  | error e => exact (connection_eq_error_iff.1 hc).2.2
  | ok c =>
    rw [hc] at hconnection
    cases hconnection

end ServiceCompiler
