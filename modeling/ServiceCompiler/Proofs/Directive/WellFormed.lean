import Mathlib.Data.List.Nodup
import ServiceCompiler.Proofs.Directive.Run
import ServiceCompiler.Proofs.Text.Pieces
import ServiceCompiler.Proofs.Text.Scan

namespace ServiceCompiler

open Text List Directive

open Text (Scan Yields IsTrimmed)

/-!
# Services that lines can build

Whatever lines a source has, the service they build is well formed, which is what the generated code
relies on.

* `Service.WellFormed` — the invariant, with one field for each part of a service.
* `Directive.WellFormed` — what a directive has to be in order to keep it.
* `read_wellFormed` — every directive that a line can be read as is so, rule by rule.
* `Directive.apply_wellFormed` — such a directive keeps the invariant (the step), and hence every run
  over lines does (`wellFormed_afterLines`).
-/

/-! ### The invariant -/

variable {name : String} {d : Directive} {s : Service}

/-- A slash, followed by word characters, slashes and colons. -/
def IsRoutePath (path : String) : Prop := ∃ cs, path.toList = '/' :: cs ∧ ∀ c ∈ cs, isPathChar c

/-- A word of ASCII letters, digits and underscores. -/
def IsPlainWord (word : String) : Prop := word ≠ "" ∧ ∀ c ∈ word.toList, isWordChar c

/-- Words with one space between each two, of which none is a mark of a column. -/
def IsTypeText (type : String) : Prop :=
  ∃ words : List String, type = " ".intercalate words ∧
    ∀ w ∈ words, w ≠ "" ∧ (∀ c ∈ w.toList, isBlank c = false) ∧ w ≠ "pk" ∧ w ≠ "identity"

structure Route.WellFormed (r : Route) : Prop where
  path : IsRoutePath r.path
  collection : IsPlainWord r.collection
  post_iff : r.method = "POST" ↔ r.action = .insert
  get_iff : r.method = "GET" ↔ r.action = .listAll ∨ r.action = .getById
  /-- No other action and hence no other method. -/
  action : r.action = .listAll ∨ r.action = .getById ∨ r.action = .insert
  bodyFields_of_ne : r.action ≠ .insert → r.bodyFields = []
  bodyFields : ∀ f ∈ r.bodyFields, IsTrimmed f.toList ∧ f ≠ "" ∧ ',' ∉ f.toList

/-- Characters of a field of a submitted document. -/
def isFieldChar (c : Char) : Bool := isWordChar c || isGap c

/-- The fields of the submitted document are words, with gaps at most. -/
def Route.HasPlainBody (r : Route) : Prop := ∀ f ∈ r.bodyFields, ∀ c ∈ f.toList, isFieldChar c

structure Field.WellFormed (f : Field) : Prop where
  name_ne : f.name ≠ ""
  name_trimmed : IsTrimmed f.name.toList
  name_colon : ':' ∉ f.name.toList
  type : IsTypeText f.type

structure Migration.WellFormed (m : Migration) : Prop where
  table_ne : m.table ≠ ""
  table_quote : '\'' ∉ m.table.toList
  fields : ∀ f ∈ m.columns, f.WellFormed

/-- Static files need a directory, and nothing else takes an argument. -/
def Middleware.WellFormed (m : Middleware) : Prop := m.arg ≠ "" ↔ m.kind = .static

structure Frontend.WellFormed (f : Frontend) : Prop where
  framework : f.framework = "" ∨ f.framework = "react"
  framework_or_packages : f.framework ≠ "" ∨ f.packages ≠ []

/-- **The invariant** of the services that lines build. -/
structure Service.WellFormed (s : Service) : Prop where
  port : 0 ≤ s.port ∧ s.port < (Nat.pow 2 63 : Nat)
  middlewares : ∀ m ∈ s.middlewares, m.WellFormed
  dialect : s.database.dialect = "" ∨ s.database.dialect = "mysql" ∨ s.database.dialect = "mssql"
  collections : ∀ c ∈ s.database.collections, IsPlainWord c
  collections_nodup : s.database.collections.Nodup
  migrations : ∀ m ∈ s.migrations, m.WellFormed
  strategy : s.auth.strategy = "" ∨ s.auth.strategy = "jwt"
  guarded : ∀ p ∈ s.auth.guarded, IsRoutePath p
  guarded_nodup : s.auth.guarded.Nodup
  routes : ∀ r ∈ s.routes, r.WellFormed
  frontend : ∀ f, s.frontend = some f → f.WellFormed

/-- What a directive has to be in order to keep the invariant. -/
def Directive.WellFormed : Directive → Prop
  | .port number => number < Nat.pow 2 63
  | .middleware entry => entry.WellFormed
  | .dialect name => name = "mysql" ∨ name = "mssql"
  | .collection name => IsPlainWord name
  | .authStrategy name => name = "jwt"
  | .guard path => IsRoutePath path
  | .framework name => name = "react"
  | .route endpoint => endpoint.WellFormed ∧ endpoint.HasPlainBody
  | .migration creation => creation.WellFormed
  | .express | .environment _ | .connect _ | .authEnable | .package _ => True

/-! ### Column lists and names in directives -/

theorem bodyFieldsOfText_wellFormed (s : String) :
    ∀ f ∈ bodyFieldsOfText s, IsTrimmed f.toList ∧ f ≠ "" ∧ ',' ∉ f.toList := by
  intro f hf
  obtain ⟨hmem, hne⟩ := mem_filter.1 hf
  obtain ⟨piece, hpiece, rfl⟩ := mem_map.1 hmem
  rw [String.toList_ofList]
  refine ⟨isTrimmed_trim piece, by simpa using hne, ?_⟩
  intro hcomma
  exact (of_mem_splitOn hpiece ',' (mem_of_mem_trim hcomma)).2 rfl

/-- Commas end the fields, so of the characters of a list these have the others. -/
theorem isFieldChar_of_mem_bodyFieldsOfText {s : String}
    (hs : ∀ c ∈ s.toList, (isWordChar c || isGap c || c == ',') = true) :
    ∀ f ∈ bodyFieldsOfText s, ∀ c ∈ f.toList, isFieldChar c := by
  intro f hf c hc
  obtain ⟨piece, hpiece, rfl⟩ := mem_map.1 (mem_filter.1 hf).1
  rw [String.toList_ofList] at hc
  obtain ⟨hmem, hcomma⟩ := of_mem_splitOn hpiece c (mem_of_mem_trim hc)
  rcases Bool.or_eq_true_iff.1 (hs c hmem) with h | h
  · exact h
  · exact absurd (beq_iff_eq.1 h) hcomma

/-- The name of a column and what follows it. -/
def Field.split (text : List Char) : List Char × List Char :=
  match cutAt? ':' text with
  | some parts => parts
  | none => (cutAt? ' ' text).getD (text, [])

/-- The column with this name and these words behind it. -/
def Field.ofWords (name : List Char) (words : List String) : Field where
  name := String.ofList name
  type := " ".intercalate (words.filter fun w => w != "pk" && w != "identity")
  primaryKey := words.contains "pk"
  identity := words.contains "identity"

theorem Field.ofText?_eq (s : String) :
    Field.ofText? s =
      let parts := Field.split (trim s.toList)
      if (trim parts.1).isEmpty then none
      else some (Field.ofWords (trim parts.1) ((words parts.2).map String.ofList)) := rfl

/-- A name never reaches beyond a colon. -/
theorem Field.colon_notMem_split (text : List Char) : ':' ∉ (Field.split text).1 := by
  rw [Field.split]
  split
  · rename_i parts hcut
    exact (eq_append_of_cutAt? hcut).2
  · rename_i hnone
    have hcolon := mark_notMem_of_cutAt? hnone
    cases hspace : cutAt? ' ' text with
    | none => exact hcolon
    | some parts =>
      intro hmem
      exact hcolon ((eq_append_of_cutAt? hspace).1 ▸ mem_append_left _ hmem)

/-- The words left for the type of a column. -/
theorem Field.isTypeText_ofWords (name text : List Char) :
    IsTypeText (Field.ofWords name ((words text).map String.ofList)).type := by
  refine ⟨_, rfl, ?_⟩
  intro w hw
  obtain ⟨hmem, hmarks⟩ := mem_filter.1 hw
  obtain ⟨word, hword, rfl⟩ := mem_map.1 hmem
  obtain ⟨hne, hblank⟩ := of_mem_words hword
  obtain ⟨hpk, hidentity⟩ : String.ofList word ≠ "pk" ∧ String.ofList word ≠ "identity" := by
    simpa using hmarks
  refine ⟨?_, ?_, hpk, hidentity⟩
  · simpa using hne
  · rwa [String.toList_ofList]

theorem Field.ofText?_wellFormed {s : String} {f : Field} (h : Field.ofText? s = some f) : f.WellFormed := by
  rw [Field.ofText?_eq] at h
  dsimp only at h
  split at h
  · simp at h
  · rename_i hne
    obtain rfl := Option.some.inj h
    refine ⟨?_, ?_, ?_, Field.isTypeText_ofWords _ _⟩
    · simpa [Field.ofWords] using hne
    · rw [Field.ofWords, String.toList_ofList]
      exact isTrimmed_trim _
    · rw [Field.ofWords, String.toList_ofList]
      exact fun hmem => Field.colon_notMem_split _ (mem_of_mem_trim hmem)

theorem fieldsOfText_wellFormed (s : String) : ∀ f ∈ fieldsOfText s, f.WellFormed := by
  intro f hf
  obtain ⟨segment, -, hsegment⟩ := mem_filterMap.1 hf
  exact Field.ofText?_wellFormed hsegment

/-- The table of a migration is a part of its name, and not empty. -/
theorem tableOfName_wellFormed (hne : name ≠ "") (hquote : '\'' ∉ name.toList) :
    tableOfName name ≠ "" ∧ '\'' ∉ (tableOfName name).toList := by
  rw [tableOfName]
  split
  · exact ⟨hne, hquote⟩
  · exact ⟨hne, hquote⟩
  · rename_i table hnil hstrip
    obtain ⟨rest, hlead, htail⟩ := Option.bind_eq_some_iff.1 hstrip
    obtain ⟨reversed, hrev, rfl⟩ := Option.map_eq_some_iff.1 htail
    refine ⟨by simpa using hnil, ?_⟩
    rw [String.toList_ofList]
    intro hmem
    apply hquote
    rw [stripLead?_eq_some_iff.1 hlead]
    have hrest : rest.reverse = "_table".toList.reverse ++ reversed :=
      stripLead?_eq_some_iff.1 hrev
    refine mem_append_right _ (mem_reverse.1 ?_)
    rw [hrest]
    exact mem_append_right _ (mem_reverse.1 hmem)

/-! ### What the rules read -/

theorem yields_routePath : Yields routePath IsRoutePath := yields_ledBy '/' isPathChar

theorem yields_plainWord : Yields plainWord IsPlainWord := yields_run1 isWordChar

theorem yields_quotedWord : Yields quotedWord IsPlainWord :=
  .after (.bind yields_plainWord fun _ h => .after (.pure h))

theorem yields_quotedText : Yields quotedText fun t => t ≠ "" ∧ '\'' ∉ t.toList := by
  refine .after (.bind (yields_run1 _) fun t ht => .after (.pure ⟨ht.1, ?_⟩))
  intro hquote
  simpa using ht.2 '\'' hquote

theorem yields_columnList (p : Char → Bool) : Yields (columnList p) fun t => ∀ c ∈ t.toList, p c :=
  .after (.bind (yields_run1 p) fun _ ht => .after (.pure ht.2))

theorem yields_portScan : Yields portScan WellFormed := by
  refine .after (.bind (.trivial _) fun _ _ => .bind (.trivial _) fun number _ => ?_)
  split
  · rename_i hlt
    exact .pure hlt
  · exact .failure

theorem yields_offerScan (words : String) {action : Action} (h : action = .listAll ∨ action = .getById) :
    Yields (offerScan words action) WellFormed := by
  refine .after (.bind yields_routePath fun path hpath => .after
    (.bind yields_quotedWord fun collection hcollection => .pure ⟨?_, by simp [Route.HasPlainBody]⟩))
  rcases h with rfl | rfl <;> exact ⟨hpath, hcollection, by simp, by simp, by simp, fun _ => rfl, by simp⟩

theorem yields_insertRouteScan : Yields insertRouteScan WellFormed := by
  refine .after (.bind yields_routePath fun path hpath => .after (.bind (yields_columnList _) fun body hbody =>
    .after (.bind yields_quotedWord fun collection hcollection => .after (.pure ⟨?_, ?_⟩))))
  · exact ⟨hpath, hcollection, by simp, by simp, by simp, fun h => absurd rfl h,
      bodyFieldsOfText_wellFormed body⟩
  · exact isFieldChar_of_mem_bodyFieldsOfText hbody

theorem yields_migrationScan : Yields migrationScan WellFormed := by
  refine .after (.after (.bind yields_quotedText fun name hname => .after
    (.bind (.trivial _) fun list _ => .pure ?_)))
  obtain ⟨hne, hquote⟩ := tableOfName_wellFormed hname.1 hname.2
  refine ⟨hne, hquote, ?_⟩
  intro f hf
  apply fieldsOfText_wellFormed list
  -- A list without columns counts as not given, and has no columns either.
  simp only [Migration.columns] at hf
  split at hf
  · simp at hf
  · exact hf

/-- Every directive that the rule reads off a line satisfies `P`. -/
def Rule.Sound (P : Directive → Prop) (rule : Rule) : Prop :=
  ∀ line d, rule.arguments line = some (.ok d) → P d

section Sound

variable {P : Directive → Prop}

theorem Rule.sound_fixed {lead : String} (h : P d) : (Rule.fixed name lead d).Sound P := by
  intro line d' hd
  obtain rfl : d = d' := by simpa [Rule.fixed] using hd
  exact h

theorem Rule.sound_scanning {lead : String} {scan : Scan Directive} (h : Yields scan P) :
    (Rule.scanning name lead scan).Sound P := by
  intro line d hd
  obtain ⟨d', hd', heq⟩ := Option.map_eq_some_iff.1 hd
  obtain rfl : d' = d := by simpa using heq
  exact h.anywhere? hd'

theorem Rule.sound_marked {marker : String} {rule : Rule} (h : rule.Sound P) : (rule.marked marker).Sound P := h

/-- A rule with a choice reads only what is allowed. -/
theorem Rule.sound_choosing {allowed : List String} {directive : String → Directive}
    (h : ∀ value ∈ allowed, P (directive value)) : (Rule.choosing name allowed directive).Sound P := by
  intro line d hd
  obtain ⟨word, -, heq⟩ := Option.map_eq_some_iff.1 hd
  dsimp only at heq
  split at heq
  · rename_i hallowed
    obtain rfl : directive (lowerAscii word) = d := by simpa using heq
    exact h _ (by simpa using hallowed)
  · simp at heq

end Sound

/-- **Every rule is sound**, in the order of the table. -/
theorem Rule.all_sound : ∀ rule ∈ Rule.all, rule.Sound WellFormed := by
  simp only [Rule.all, forall_mem_cons]
  refine ⟨?essence, ?port, ?json, ?environment, ?cors, ?dialect, ?connect, ?collection, ?logger,
    ?static, ?enable, ?strategy, ?guard, ?framework, ?package, ?list, ?get, ?insert, ?migration,
    forall_mem_nil _⟩
  case essence => exact sound_fixed trivial
  case port =>
    intro line d hd
    obtain ⟨d', hd', heq⟩ := Option.map_eq_some_iff.1 hd
    obtain rfl : d' = d := by simpa using heq
    exact yields_portScan.atStart? hd'
  case json => exact sound_fixed (by simp [WellFormed, Middleware.WellFormed])
  case environment =>
    exact sound_scanning (.after (.after (.bind (.trivial _) fun _ _ => .pure trivial)))
  case cors => exact sound_fixed (by simp [WellFormed, Middleware.WellFormed])
  case dialect =>
    refine sound_choosing fun value hvalue => ?_
    show value = "mysql" ∨ value = "mssql"
    simpa [Engine.names, Engine.all, Engine.name] using hvalue
  case connect => exact sound_scanning (.after (.bind (.trivial _) fun _ _ => .pure trivial))
  case collection =>
    exact sound_scanning (.after (.bind yields_quotedWord fun _ hword => .pure hword))
  case logger => exact sound_fixed (by simp [WellFormed, Middleware.WellFormed])
  case static =>
    refine sound_scanning (.after (.after (.bind yields_quotedText fun _ htext => .pure ?_)))
    simp [WellFormed, Middleware.WellFormed, htext.1]
  case enable => exact sound_fixed trivial
  case strategy =>
    refine sound_choosing fun value hvalue => ?_
    exact mem_singleton.1 hvalue
  case guard =>
    exact sound_scanning (.after (.after (.bind yields_routePath fun _ hpath => .after (.pure hpath))))
  case framework =>
    refine sound_choosing fun value hvalue => ?_
    exact mem_singleton.1 hvalue
  case package =>
    exact sound_scanning (.after (.after (.bind (.trivial _) fun _ _ => .pure trivial)))
  case list => exact sound_marked (sound_scanning (yields_offerScan _ (.inl rfl)))
  case get => exact sound_marked (sound_scanning (yields_offerScan _ (.inr rfl)))
  case insert => exact sound_marked (sound_scanning yields_insertRouteScan)
  case migration => exact sound_scanning yields_migrationScan

/-- What a line is read as, the rule that claims it reads. -/
theorem Line.exists_rule_of_directive? {line : Line} (h : line.directive? = some d) :
    ∃ rule, Rule.claiming? line.text.toList = some rule ∧ rule.arguments line.text.toList = some (.ok d) := by
  rw [Line.directive?, Directive.read] at h
  split at h
  · simp [Reading.directive?] at h
  · rename_i rule hrule
    split at h
    · simp [Reading.directive?] at h
    · rename_i d' harguments
      obtain rfl : d' = d := by simpa [Reading.directive?] using h
      exact ⟨rule, hrule, harguments⟩
    · simp [Reading.directive?] at h

theorem read_wellFormed {line : Line} (h : line.directive? = some d) : d.WellFormed := by
  obtain ⟨rule, hrule, harguments⟩ := Line.exists_rule_of_directive? h
  exact Rule.all_sound rule (mem_of_find?_eq_some hrule) _ _ harguments

/-! ### Steps and runs -/

theorem wellFormed_default : Service.WellFormed {} where
  port := by decide
  middlewares := by simp
  dialect := .inl rfl
  collections := by simp
  collections_nodup := nodup_nil
  migrations := by simp
  strategy := .inl rfl
  guarded := by simp
  guarded_nodup := nodup_nil
  routes := by simp
  frontend := by simp

theorem forall_mem_concat {α : Type} {P : α → Prop} {xs : List α} {x : α} (hxs : ∀ a ∈ xs, P a)
    (hx : P x) : ∀ a ∈ xs ++ [x], P a := by
  intro a ha
  rcases mem_append.1 ha with ha | ha
  · exact hxs a ha
  · rwa [mem_singleton.1 ha]

theorem forall_mem_appendNew {P : String → Prop} {xs : List String} {x : String}
    (hxs : ∀ a ∈ xs, P a) (hx : P x) : ∀ a ∈ appendNew xs x, P a := by
  rw [appendNew]
  split
  · exact hxs
  · exact forall_mem_concat hxs hx

theorem nodup_appendNew {xs : List String} (hxs : xs.Nodup) (x : String) : (appendNew xs x).Nodup := by
  rw [appendNew]
  split
  · exact hxs
  · rename_i hx
    rw [nodup_append]
    refine ⟨hxs, nodup_singleton x, ?_⟩
    intro a ha b hb hab
    obtain rfl : b = x := mem_singleton.1 hb
    exact hx (by simpa [hab] using ha)

/-- A client project, if there is one, names no framework or the supported one. -/
theorem Service.WellFormed.client_framework (hs : s.WellFormed) :
    s.client.framework = "" ∨ s.client.framework = "react" := by
  rw [Service.client]
  cases hf : s.frontend with
  | none => exact .inl rfl
  | some f => exact (hs.frontend f hf).framework

/-- **The step.** A well-formed directive keeps the invariant. -/
theorem Directive.apply_wellFormed (hd : d.WellFormed) (hs : s.WellFormed) : (d.apply s).WellFormed := by
  cases d with
  | express => exact hs
  | port number =>
    have hnumber : number < Nat.pow 2 63 := hd
    exact { hs with port := ⟨Int.natCast_nonneg number, Int.ofNat_lt.2 hnumber⟩ }
  | middleware entry => exact { hs with middlewares := forall_mem_concat hs.middlewares hd }
  | environment file => exact { hs with }
  | dialect name => exact { hs with dialect := .inr hd }
  | connect url => exact { hs with }
  | collection name =>
    exact { hs with
      collections := forall_mem_appendNew hs.collections hd
      collections_nodup := nodup_appendNew hs.collections_nodup name }
  | authEnable => exact { hs with }
  | authStrategy name => exact { hs with strategy := .inr hd }
  | guard path =>
    exact { hs with
      guarded := forall_mem_appendNew hs.guarded hd
      guarded_nodup := nodup_appendNew hs.guarded_nodup path }
  | framework name =>
    have hname : name = "react" := hd
    refine { hs with frontend := ?_ }
    rintro f hf
    obtain rfl := Option.some.inj hf
    exact ⟨.inr hname, .inl (by simp [hname])⟩
  | package name =>
    refine { hs with frontend := ?_ }
    rintro f hf
    obtain rfl := Option.some.inj hf
    exact ⟨hs.client_framework, .inr (by simp)⟩
  | route endpoint => exact { hs with routes := forall_mem_concat hs.routes hd.1 }
  | migration creation => exact { hs with migrations := forall_mem_concat hs.migrations hd }

theorem Service.WellFormed.afterLine (hs : s.WellFormed) (line : Line) : (s.afterLine line).WellFormed := by
  rw [Service.afterLine_eq]
  cases hd : line.directive? with
  | none => exact hs
  | some d => exact apply_wellFormed (read_wellFormed hd) hs

/-- **The run.** The invariant holds after every list of lines. -/
theorem wellFormed_afterLines (lines : List Line) : (Service.afterLines lines).WellFormed := by
  induction lines using reverseRecOn with
  | nil => exact wellFormed_default
  | append_singleton lines line ih =>
    rw [Service.afterLines, foldl_append]
    exact ih.afterLine line

theorem wellFormed_of_ofSource {source : String} {b : Build} (hb : Build.ofSource source = .ok b) :
    b.service.WellFormed := by
  rw [Build.service_ofLines hb]
  exact wellFormed_afterLines _

/-- A service that names a database names a supported one. -/
theorem Service.WellFormed.exists_engine (hs : s.WellFormed) (h : s.hasDatabase) :
    ∃ e, Engine.ofName s.database.dialect = .ok e := by
  rcases hs.dialect with hd | hd | hd
  · simp [Service.hasDatabase, hd] at h
  · exact ⟨.mysql, by rw [hd]; rfl⟩
  · exact ⟨.mssql, by rw [hd]; rfl⟩

/-- **The services that lines build.** After every list of lines, of which those with unsupported values
    are passed over, the service is well formed; hence the database that it names is known. -/
theorem afterLines_wellFormed_engine (lines : List Line) :
    (Service.afterLines lines).WellFormed ∧
      ((Service.afterLines lines).hasDatabase →
        ∃ e, Engine.ofName (Service.afterLines lines).database.dialect = .ok e) :=
  ⟨wellFormed_afterLines lines, (wellFormed_afterLines lines).exists_engine⟩

end ServiceCompiler
