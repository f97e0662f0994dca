import ServiceCompiler.Proofs.Code.EmbeddedMigrations
import ServiceCompiler.Proofs.Naming.Valid
import ServiceCompiler.Proofs.Routes.RoutesPackage

namespace ServiceCompiler

open Code List

/-!
# Files that can be rendered

Rendering fails where the layout of a comment does, and nowhere else.  For services that lines can build this never
happens: whatever text of a service gets into a comment, the comment is a sentence.

* `Code.SourceFile.IsPlain` — all comments of a file are written as they are; such a file can be rendered under every
  header that is accepted (`IsPlain.exists_render`).
* `Naming.IsLed.isSentence` — the comments of registrations and handlers, which start with an identifier.
* `exists_plain_groupFile` — the file of a group is made, and it is plain.
* `isPlain_of_makes` — so is every file of a generator.
-/

/-- A file all whose comments are written as they are. -/
def Code.SourceFile.IsPlain (f : SourceFile) : Prop := ∀ d ∈ f.declarations, d.IsPlain

theorem Code.SourceFile.IsPlain.exists_render {f : SourceFile} (h : f.IsPlain) {settings : Settings} {header : String}
    (hheader : header? settings.header = some header) : ∃ content, f.render? settings = some content := by
  obtain ⟨body, hbody, -⟩ := exists_bodyLines h none
  exact ⟨_, by rw [SourceFile.render?, hheader, hbody]; rfl⟩

/-- A function is plain when its comment is. -/
theorem isPlain_function {signature : String} {doc body : List String} {uses : List Package}
    (hdoc : ∀ text ∈ doc, IsPlainDoc text) : (function signature doc uses body).IsPlain :=
  ⟨hdoc, cons_ne_nil _ _⟩

/-! ### Files that are the same for all services -/

/-- The comments that do not depend on the service, the database package apart. -/
def fixedDocs : List String :=
  ([parseJson, handleErrors, registerAuthFunction, passwordCost 0] ++ authFile.declarations ++
    (indexFile {} false []).declarations).flatMap (·.doc)

theorem isPlainDoc_fixedDocs : ∀ text ∈ fixedDocs, IsPlainDoc text := by
  have hall : ∀ text ∈ fixedDocs, IsSentence text.toList := by
    simp only [fixedDocs, parseJson, handleErrors, registerAuthFunction, passwordCost, authFile, indexFile, function,
      secretFunction, signFunction, authenticateFunction, cons_append, nil_append, flatMap_cons,
      flatMap_nil, forall_mem_cons]
    repeat rw [String.toList_ofList]
    decide +kernel
  exact fun text htext => (hall text htext).isPlainDoc

theorem isPlain_of_subset {d : Declaration} (hdoc : d.doc ⊆ fixedDocs) (hlines : d.lines ≠ []) : d.IsPlain :=
  ⟨fun text htext => isPlainDoc_fixedDocs text (hdoc htext), hlines⟩

theorem isPlain_appFile (s : Service) (hasEngine : Bool) : (appFile s hasEngine).IsPlain := by
  have hmain : (mainFunction s hasEngine).IsPlain := isPlain_function (by simp)
  have hjson : parseJson.IsPlain := isPlain_of_subset (by decide) (cons_ne_nil _ _)
  have herrors : handleErrors.IsPlain := isPlain_of_subset (by decide) (cons_ne_nil _ _)
  intro d hd
  simp only [appFile, mem_append, mem_singleton] at hd
  rcases hd with (rfl | hd) | rfl
  · exact hmain
  · split at hd
    · rwa [mem_singleton.1 hd]
    · cases hd
  · exact herrors

theorem isPlain_authFile : authFile.IsPlain := by
  intro d hd
  refine isPlain_of_subset ?_ ?_
  · intro text htext
    exact mem_flatMap.2 ⟨d, by simp [hd], htext⟩
  · revert d
    decide

theorem isPlain_authRoutesFile (settings : Settings) (engine : Option Engine) :
    (authRoutesFile settings engine).IsPlain := by
  have hregister : registerAuthFunction.IsPlain := isPlain_of_subset (by decide) (cons_ne_nil _ _)
  refine forall_mem_cons.2 ⟨hregister, ?_⟩
  cases engine with
  | none =>
    exact forall_mem_cons.2 ⟨isPlain_function (by simp), forall_mem_singleton.2 (isPlain_function (by simp))⟩
  | some e =>
    have hcost : (passwordCost settings.bcryptCost).IsPlain := by
      refine isPlain_of_subset ?_ (cons_ne_nil _ _)
      exact (by decide : (passwordCost 0).doc ⊆ fixedDocs)
    have htype : credentialsType.IsPlain := ⟨by simp [credentialsType], cons_ne_nil _ _⟩
    refine forall_mem_cons.2 ⟨hcost, forall_mem_cons.2 ⟨htype, forall_mem_cons.2 ⟨?_, ?_⟩⟩⟩
    · exact isPlain_function (by simp)
    · exact forall_mem_singleton.2 (isPlain_function (by simp))

theorem isPlain_indexFile (s : Service) (hasEngine : Bool) (groups : List NamedGroup) :
    (indexFile s hasEngine groups).IsPlain := by
  refine forall_mem_singleton.2 (isPlain_of_subset ?_ (cons_ne_nil _ _))
  exact (by decide : (indexFile {} false []).declarations.flatMap (·.doc) ⊆ fixedDocs)

theorem isPlain_databaseFile (e : Engine) (c : Connection) (steps : List PlanStep) :
    (databaseFile e c steps).IsPlain := by
  show ∀ d ∈ declarationsBefore e c ++ [migrationsVariable e steps, migrateFunction e], d.IsPlain
  refine forall_mem_append.2 ⟨fun d hd => (isPassed_declarationsBefore e c d hd).isPlain, ?_⟩
  exact forall_mem_cons.2
    ⟨isPlain_migrationsVariable e steps, forall_mem_singleton.2 (isPlain_migrateFunction e)⟩

/-! ### Files of groups -/

theorem isSentenceChar_of_isPathChar {c : Char} (h : isPathChar c) : isSentenceChar c := by
  have hascii : c.toNat < 128 := by
    rw [isPathChar, Bool.or_eq_true, Bool.or_eq_true, beq_iff_eq, beq_iff_eq] at h
    rcases h with (h | rfl) | rfl
    · exact Text.toNat_lt_of_isWordChar h
    · decide
    · decide
  revert h
  exact Text.forall_ascii (P := fun c => isPathChar c → isSentenceChar c) (by decide +kernel) hascii

theorem isSentenceChar_of_isAlphanumeric {c : Char} (h : Text.isAlphanumeric c) : isSentenceChar c := by
  refine isSentenceChar_of_isPathChar ?_
  rw [isPathChar, Text.isWordChar_of_isAlphanumeric h]
  rfl

theorem isSentenceChar_of_isRoutePath {path : String} (h : IsRoutePath path) :
    ∀ c ∈ path.toList, isSentenceChar c := by
  obtain ⟨cs, hpath, hcs⟩ := h
  rw [hpath]
  exact forall_mem_cons.2 ⟨by decide, fun c hc => isSentenceChar_of_isPathChar (hcs c hc)⟩

/-- What starts with an identifier and ends with a full stop is a sentence. -/
theorem Naming.IsLed.isSentence {name : String} (h : IsLed name) {middle : List Char}
    (hmiddle : ∀ c ∈ middle, isSentenceChar c) : IsSentence (name.toList ++ middle ++ ['.']) := by
  obtain ⟨lead, hlead, rest, hname, hrest⟩ := h
  have hleads : ∀ lead ∈ leads, IsSentence lead.toList := by decide +kernel
  have hsentence := hleads lead hlead
  refine ⟨?_, ?_, ⟨'.', getLast?_concat, by decide⟩⟩
  · simp only [hname, forall_mem_append]
    exact ⟨⟨⟨hsentence.chars, fun c hc => isSentenceChar_of_isAlphanumeric (hrest c hc)⟩, hmiddle⟩,
      forall_mem_singleton.2 (by decide)⟩
  · obtain ⟨c, tail, htail, hc⟩ := hsentence.head
    exact ⟨c, tail ++ rest ++ middle ++ ['.'], by rw [hname, htail]; simp, hc⟩

/-- The first segment of a path that lines can give. -/
theorem Route.WellFormed.isSegment {r : Route} (hr : r.WellFormed) : Naming.IsSegment r.segment := by
  obtain ⟨cs, hpath, hcs⟩ := hr.path
  rw [Naming.IsSegment, Route.segment, Path.firstSegment]
  split
  · rename_i segment hsegment
    intro c hc
    rw [String.toList_ofList] at hc
    obtain ⟨hmem, hslash⟩ := Text.of_mem_splitOn (mem_of_find?_eq_some hsegment) c hc
    rw [hpath] at hmem
    rcases mem_cons.1 hmem with rfl | hmem
    · exact absurd rfl hslash
    · have hchar := hcs c hmem
      rw [isPathChar, Bool.or_eq_true, Bool.or_eq_true, beq_iff_eq, beq_iff_eq] at hchar
      rcases hchar with (hchar | rfl) | hchar
      · exact .inl hchar
      · exact absurd rfl hslash
      · exact .inr hchar
  · simp

theorem registerLines?_ne_nil {head : String} {entries : List Registration} {lines : List String}
    (h : registerLines? head entries = some lines) : lines ≠ [] := by
  rw [registerLines?] at h
  split at h
  · obtain rfl := Option.some.inj h
    split
    · exact cons_ne_nil _ _
    · exact cons_ne_nil _ _
  · split at h
    · obtain rfl := Option.some.inj h
      exact cons_ne_nil _ _
    · obtain ⟨body, -, rfl⟩ := Option.map_eq_some_iff.1 h
      exact cons_ne_nil _ _

section Groups

variable {s : Service} (hs : s.WellFormed) {g : NamedGroup} (hg : g ∈ nameGroups (Route.groups s.routes))

include hs hg

theorem Service.WellFormed.route_of_mem {r : Route} (hr : r ∈ g.routes) : r.WellFormed :=
  hs.routes r ((NamedGroup.mem_routes_iff hg).1 hr).1

theorem Service.WellFormed.isSegment_group : Naming.IsSegment g.segment := by
  obtain ⟨r, hr⟩ := NamedGroup.exists_mem_routes hg
  rw [← ((NamedGroup.mem_routes_iff hg).1 hr).2]
  exact (hs.route_of_mem hg hr).isSegment

theorem Service.WellFormed.isLed_identifiers : ∀ x ∈ g.identifiers, Naming.IsLed x :=
  (named_of_mem_nameGroups hg).isLed (hs.isSegment_group hg) fun _ hr => (hs.route_of_mem hg hr).collection.2

theorem isPlain_registerFunction {entries : List Registration} {f : Declaration}
    (hf : registerFunction? g entries = some f) : f.IsPlain := by
  obtain ⟨lines, hlines, rfl⟩ := Option.map_eq_some_iff.1 hf
  refine ⟨forall_mem_singleton.2 ?_, ?_⟩
  · have hmiddle : ∀ c ∈ " mounts the ".toList ++ g.mountPath.toList ++ " routes".toList, isSentenceChar c := by
      simp only [RouteGroup.mountPath, String.toList_append, forall_mem_append]
      refine ⟨⟨all_eq_true.1 (by decide), all_eq_true.1 (by decide), ?_⟩, all_eq_true.1 (by decide)⟩
      intro c hc
      rcases hs.isSegment_group hg c hc with h | rfl
      · exact isSentenceChar_of_isPathChar (by rw [isPathChar, h]; rfl)
      · decide
    have hsentence := (hs.isLed_identifiers hg g.register mem_cons_self).isSentence hmiddle
    exact IsSentence.isPlainDoc (by simpa using hsentence)
  · exact registerLines?_ne_nil hlines

theorem isLed_handler {n : NamedRoute} (hn : n ∈ mountedRoutes g) : Naming.IsLed n.handler :=
  hs.isLed_identifiers hg n.handler (mem_cons_of_mem _ (handler_mem hg ((mountedRoutes_sublist g).subset hn)))

theorem wellFormed_mounted {n : NamedRoute} (hn : n ∈ mountedRoutes g) : n.route.WellFormed :=
  hs.route_of_mem hg ((named_of_mem_nameGroups hg).route_mem ((mountedRoutes_sublist g).subset hn))

theorem isPlain_handlerFunction {e : Engine} {n : NamedRoute} (hn : n ∈ mountedRoutes g) {d : Declaration}
    (hd : handlerFunction? e n = some d) : d.IsPlain := by
  obtain ⟨b, -, rfl⟩ := Option.map_eq_some_iff.1 hd
  have hroute := wellFormed_mounted hs hg hn
  refine isPlain_function (forall_mem_singleton.2 ?_)
  have hmiddle : ∀ c ∈ " handles ".toList ++ n.route.method.toList ++ " ".toList ++ n.route.path.toList,
      isSentenceChar c := by
    simp only [forall_mem_append]
    refine ⟨⟨⟨all_eq_true.1 (by decide), ?_⟩, all_eq_true.1 (by decide)⟩,
      isSentenceChar_of_isRoutePath hroute.path⟩
    rcases hroute.method with h | h
    · rw [h]
      exact all_eq_true.1 (by decide)
    · rw [h]
      exact all_eq_true.1 (by decide)
  exact IsSentence.isPlainDoc (by simpa using (isLed_handler hs hg hn).isSentence hmiddle)

/-- **The file of a group is made, and it is plain.** -/
theorem exists_plain_groupFile (engine : Option Engine) :
    ∃ file, groupFile? s engine g = some file ∧ file.IsPlain := by
  cases engine with
  | none =>
    obtain ⟨f, hf⟩ : ∃ f, registerFunction? g [] = some f := ⟨_, rfl⟩
    refine ⟨⟨"routes", [f], []⟩, by rw [groupFile?, hf]; rfl, ?_⟩
    exact forall_mem_singleton.2 (isPlain_registerFunction hs hg hf)
  | some e =>
    obtain ⟨file, -, -, hfile, -⟩ := groupFile_exact e hs hg
    refine ⟨file, hfile, ?_⟩
    obtain ⟨f, hf, rfl⟩ := Option.map_eq_some_iff.1 hfile
    refine forall_mem_cons.2 ⟨isPlain_registerFunction hs hg hf, ?_⟩
    intro d hd
    obtain ⟨n, hn, hd⟩ := mem_filterMap.1 hd
    exact isPlain_handlerFunction hs hg hn hd

end Groups

/-! ### Every file -/

/-- **Every file is plain** that a generator of a well-formed service makes. -/
theorem isPlain_of_makes {g : Generator} (hs : g.service.WellFormed) {path : String} {file : SourceFile}
    (h : g.Makes path file) : file.IsPlain := by
  cases h with
  | app => exact isPlain_appFile _ _
  | database _ _ => exact isPlain_databaseFile _ _ _
  | auth _ => exact isPlain_authFile
  | authRoutes _ => exact isPlain_authRoutesFile _ _
  | index => exact isPlain_indexFile _ _ _
  | group hgroup hfile =>
    obtain ⟨file', hfile', hplain⟩ := exists_plain_groupFile hs hgroup g.target
    rwa [Option.some.inj (hfile.symm.trans hfile')]

end ServiceCompiler
