import ServiceCompiler.Proofs.Directive.WellFormed
import ServiceCompiler.Proofs.FirstAppearance

namespace ServiceCompiler

open Directive Service List

/-!
# A service is the merge of its topics

Each directive is about one topic, and each part of a service depends on the directives of its topic
alone: on the last one, on all of them in order, or on their first appearances.

* `Service.view_applyAll` — the run lemma: a view of the service that each directive either leaves alone
  or updates by its own value is the fold of these values.
* `Service.IsMerge` — what each part of a service is, in terms of the directives of its topic.
* `isMerge_applyAll` — the service that directives build is their merge.
* `Service.IsMerge.of_topics` and `Service.IsMerge.unique` — hence it does not matter how the topics are
  interleaved.
-/

/-! ### Topics -/

/-- What a directive is about. -/
inductive Topic where
  | opening
  | port
  | middleware
  | environment
  | dialect
  | url
  | collection
  | enabling
  | strategy
  | guard
  | framework
  | package
  | route
  | migration
  deriving DecidableEq, Repr

namespace Directive

def topic : Directive → Topic
  | .express => .opening
  | .port _ => .port
  | .middleware _ => .middleware
  | .environment _ => .environment
  | .dialect _ => .dialect
  | .connect _ => .url
  | .collection _ => .collection
  | .authEnable => .enabling
  | .authStrategy _ => .strategy
  | .guard _ => .guard
  | .framework _ => .framework
  | .package _ => .package
  | .route _ => .route
  | .migration _ => .migration

/-! The value that a directive gives to its topic, and nothing for the directives of other topics. -/

def port? : Directive → Option Int
  | .port number => some number
  | _ => none

def middleware? : Directive → Option Middleware
  | .middleware entry => some entry
  | _ => none

def environment? : Directive → Option String
  | .environment file => some file
  | _ => none

def dialect? : Directive → Option String
  | .dialect name => some name
  | _ => none

def url? : Directive → Option String
  | .connect url => some url
  | _ => none

def collection? : Directive → Option String
  | .collection name => some name
  | _ => none

def strategy? : Directive → Option String
  | .authStrategy name => some name
  | _ => none

def guard? : Directive → Option String
  | .guard path => some path
  | _ => none

def framework? : Directive → Option String
  | .framework name => some name
  | _ => none

def package? : Directive → Option String
  | .package name => some name
  | _ => none

def route? : Directive → Option Route
  | .route endpoint => some endpoint
  | _ => none

def migration? : Directive → Option Migration
  | .migration creation => some creation
  | _ => none

end Directive

/-! ### Views of a service -/

section Views

variable {β δ : Type}

/-- **The run lemma.** A view of the service that each directive either leaves alone or updates by the
    value it gives is, after a run, the fold of these values. -/
theorem Service.view_applyAll (view : Service → δ) (value? : Directive → Option β)
    (update : δ → β → δ)
    (step : ∀ s d, view (d.apply s) = (value? d).elim (view s) (update (view s)))
    (s : Service) (ds : List Directive) :
    view (s.applyAll ds) = (ds.filterMap value?).foldl update (view s) := by
  induction ds generalizing s with
  | nil => rfl
  | cons d ds ih =>
    have hrun : view (s.applyAll (d :: ds)) = (ds.filterMap value?).foldl update (view (d.apply s)) :=
      ih (d.apply s)
    rw [hrun, step, filterMap_cons]
    cases value? d <;> rfl

/-- A view that takes over the value of each directive ends at the last one. -/
theorem Service.last_applyAll (view : Service → β) (value? : Directive → Option β)
    (step : ∀ s d, view (d.apply s) = (value? d).getD (view s)) (s : Service) (ds : List Directive) :
    view (s.applyAll ds) = (ds.filterMap value?).getLast?.getD (view s) := by
  have hlast : ∀ vs : List β, vs.foldl (fun _ v => v) (view s) = vs.getLast?.getD (view s) := by
    intro vs
    induction vs using reverseRecOn with
    | nil => rfl
    | append_singleton vs v _ => simp
  rw [view_applyAll view value? (fun _ v => v), hlast]
  intro s d
  rw [step]
  cases value? d <;> rfl

/-- A view that puts the value of each directive at its end collects them all. -/
theorem Service.collect_applyAll (view : Service → List β) (value? : Directive → Option β)
    (step : ∀ s d, view (d.apply s) = view s ++ (value? d).toList) (s : Service)
    (ds : List Directive) : view (s.applyAll ds) = view s ++ ds.filterMap value? := by
  have hconcat : ∀ vs : List β, vs.foldl (fun xs v => xs ++ [v]) (view s) = view s ++ vs := by
    intro vs
    induction vs using reverseRecOn with
    | nil => simp
    | append_singleton vs v ih => rw [foldl_append, ih, ← append_assoc]; rfl
  rw [view_applyAll view value? (fun xs v => xs ++ [v]), hconcat]
  intro s d
  rw [step]
  cases value? d <;> simp

/-- A view that adds the value of each directive unless it is there holds their first appearances. -/
theorem Service.distinct_applyAll (view : Service → List String) (value? : Directive → Option String)
    (step : ∀ s d, view (d.apply s) = (value? d).elim (view s) (appendNew (view s))) {s : Service}
    (hs : view s = []) (ds : List Directive) :
    FirstAppearances (ds.filterMap value?) (view (s.applyAll ds)) := by
  rw [view_applyAll view value? appendNew step, hs, foldl_appendNew]
  exact firstAppearances_eraseDups _

end Views

/-! ### The merge -/

/-- What each part of a service is, in terms of the directives of its topic alone. -/
structure Service.IsMerge (s : Service) (ds : List Directive) : Prop where
  port : s.port = (ds.filterMap port?).getLast?.getD 3000
  envFile : s.envFile = (ds.filterMap environment?).getLast?.getD ""
  url : s.database.url = (ds.filterMap url?).getLast?.getD ""
  dialect : s.database.dialect = (ds.filterMap dialect?).getLast?.getD ""
  strategy : s.auth.strategy = (ds.filterMap strategy?).getLast?.getD ""
  enabled : s.auth.enabled ↔ authEnable ∈ ds
  middlewares : s.middlewares = ds.filterMap middleware?
  routes : s.routes = ds.filterMap route?
  migrations : s.migrations = ds.filterMap migration?
  packages : s.client.packages = ds.filterMap package?
  collections : FirstAppearances (ds.filterMap collection?) s.database.collections
  guarded : FirstAppearances (ds.filterMap guard?) s.auth.guarded
  frontend : s.frontend = none ↔
    ds.filterMap framework? = [] ∧ ds.filterMap package? = []
  framework : s.client.framework = (ds.filterMap framework?).getLast?.getD ""
  framework_ne : s.client.framework ≠ "" ↔ ds.filterMap framework? ≠ []

/-- Requests may carry tokens as soon as one directive says so. -/
theorem enabled_applyAll (ds : List Directive) : (applyAll {} ds).auth.enabled ↔ authEnable ∈ ds := by
  induction ds using reverseRecOn with
  | nil => simp [applyAll]
  | append_singleton ds d ih =>
    rw [applyAll_append, mem_append, ← ih]
    cases d <;> simp [applyAll, apply]

/-- There is a client project as soon as one directive is about it. -/
theorem frontend_applyAll (ds : List Directive) :
    (applyAll {} ds).frontend = none ↔
      ds.filterMap framework? = [] ∧ ds.filterMap package? = [] := by
  induction ds using reverseRecOn with
  | nil => simp [applyAll]
  | append_singleton ds d ih =>
    rw [applyAll_append, filterMap_append, filterMap_append,
      append_eq_nil_iff, append_eq_nil_iff]
    cases d with
    | framework name => simp [applyAll, apply, framework?]
    | package name => simp [applyAll, apply, package?]
    | _ => exact ih.trans (by simp only [filterMap_cons, filterMap_nil, framework?, package?, and_true])

theorem getLast?_getD_ne_empty_iff {xs : List String} (h : ∀ x ∈ xs, x ≠ "") :
    xs.getLast?.getD "" ≠ "" ↔ xs ≠ [] := by
  cases hlast : xs.getLast? with
  | none => simp [getLast?_eq_none_iff.1 hlast]
  | some x =>
    have hmem := mem_of_getLast? hlast
    simp [h x hmem, ne_nil_of_mem hmem]

/-- **The merge.** The service that well-formed directives build is their merge. -/
theorem isMerge_applyAll {ds : List Directive} (hds : ∀ d ∈ ds, d.WellFormed) :
    (applyAll {} ds).IsMerge ds := by
  have hframework : (applyAll {} ds).client.framework =
      (ds.filterMap framework?).getLast?.getD "" :=
    last_applyAll (·.client.framework) _ (by intro s d; cases d <;> rfl) {} ds
  exact {
    port := last_applyAll (·.port) _ (by intro s d; cases d <;> rfl) {} ds
    envFile := last_applyAll (·.envFile) _ (by intro s d; cases d <;> rfl) {} ds
    url := last_applyAll (·.database.url) _ (by intro s d; cases d <;> rfl) {} ds
    dialect := last_applyAll (·.database.dialect) _ (by intro s d; cases d <;> rfl) {} ds
    strategy := last_applyAll (·.auth.strategy) _ (by intro s d; cases d <;> rfl) {} ds
    enabled := enabled_applyAll ds
    middlewares := collect_applyAll (·.middlewares) _
      (by intro s d; cases d <;> simp [apply, middleware?]) {} ds
    routes := collect_applyAll (·.routes) _
      (by intro s d; cases d <;> simp [apply, route?]) {} ds
    migrations := collect_applyAll (·.migrations) _
      (by intro s d; cases d <;> simp [apply, migration?]) {} ds
    packages := collect_applyAll (·.client.packages) _
      (by intro s d; cases d <;> simp [apply, package?, client]) {} ds
    collections := distinct_applyAll (·.database.collections) _
      (by intro s d; cases d <;> rfl) rfl ds
    guarded := distinct_applyAll (·.auth.guarded) _ (by intro s d; cases d <;> rfl) rfl ds
    frontend := frontend_applyAll ds
    framework := hframework
    framework_ne := by
      rw [hframework]
      refine getLast?_getD_ne_empty_iff fun name hname => ?_
      obtain ⟨d, hd, hvalue⟩ := mem_filterMap.1 hname
      have hwell := hds d hd
      cases d with
      | framework supported =>
        obtain rfl : supported = name := Option.some.inj hvalue
        rw [show supported = "react" from hwell]
        decide
      | _ => simp [framework?] at hvalue }

/-! ### Interleavings -/

/-- What directives give to a topic is given by those of the topic alone. -/
theorem filterMap_eq_of_topic {β : Type} {value? : Directive → Option β} {t : Topic}
    (hvalue : ∀ d, d.topic ≠ t → value? d = none) {ds es : List Directive}
    (h : ds.filter (·.topic = t) = es.filter (·.topic = t)) :
    ds.filterMap value? = es.filterMap value? := by
  have hown : ∀ xs : List Directive,
      xs.filterMap value? = (xs.filter (·.topic = t)).filterMap value? := by
    intro xs
    rw [filterMap_filter]
    refine filterMap_congr fun d _ => ?_
    by_cases hd : d.topic = t
    · simp [hd]
    · simp [hd, hvalue d hd]
  rw [hown ds, hown es, h]

attribute [ext] Database Auth Frontend Service

theorem Service.IsMerge.unique {s s' : Service} {ds : List Directive} (hs : s.IsMerge ds)
    (hs' : s'.IsMerge ds) : s = s' := by
  have hclient : s.client = s'.client := by
    ext1
    · rw [hs.framework, hs'.framework]
    · rw [hs.packages, hs'.packages]
  ext1
  case port => rw [hs.port, hs'.port]
  case middlewares => rw [hs.middlewares, hs'.middlewares]
  case envFile => rw [hs.envFile, hs'.envFile]
  case database =>
    ext1
    · rw [hs.dialect, hs'.dialect]
    · rw [hs.url, hs'.url]
    · exact hs.collections.unique hs'.collections
  case migrations => rw [hs.migrations, hs'.migrations]
  case auth =>
    ext1
    · exact Bool.eq_iff_iff.2 (hs.enabled.trans hs'.enabled.symm)
    · rw [hs.strategy, hs'.strategy]
    · exact hs.guarded.unique hs'.guarded
  case routes => rw [hs.routes, hs'.routes]
  case frontend =>
    -- Both projects are there or none, and what is in them is the same.
    have hnone : s.frontend = none ↔ s'.frontend = none := by rw [hs.frontend, hs'.frontend]
    simp only [client] at hclient
    cases hf : s.frontend with
    | none => rw [hnone.1 hf]
    | some f =>
      cases hf' : s'.frontend with
      | none => exact absurd (hnone.2 hf') (by simp [hf])
      | some f' => simpa [hf, hf'] using hclient

/-- **Only the order inside the topics counts.** A merge of directives is a merge of all directives that
    agree with them topic by topic. -/
theorem Service.IsMerge.of_topics {s : Service} {ds es : List Directive} (hs : s.IsMerge ds)
    (h : ∀ t, ds.filter (·.topic = t) = es.filter (·.topic = t)) : s.IsMerge es := by
  have hport : ds.filterMap port? = es.filterMap port? :=
    filterMap_eq_of_topic (by intro d; cases d <;> simp [topic, port?])
      (h .port)
  have henvironment : ds.filterMap environment? = es.filterMap environment? :=
    filterMap_eq_of_topic (by intro d; cases d <;> simp [topic, environment?])
      (h .environment)
  have hurl : ds.filterMap url? = es.filterMap url? :=
    filterMap_eq_of_topic (by intro d; cases d <;> simp [topic, url?])
      (h .url)
  have hdialect : ds.filterMap dialect? = es.filterMap dialect? :=
    filterMap_eq_of_topic (by intro d; cases d <;> simp [topic, dialect?])
      (h .dialect)
  have hstrategy : ds.filterMap strategy? = es.filterMap strategy? :=
    filterMap_eq_of_topic (by intro d; cases d <;> simp [topic, strategy?])
      (h .strategy)
  have hmiddlewares : ds.filterMap middleware? = es.filterMap middleware? :=
    filterMap_eq_of_topic (by intro d; cases d <;> simp [topic, middleware?])
      (h .middleware)
  have hroutes : ds.filterMap route? = es.filterMap route? :=
    filterMap_eq_of_topic (by intro d; cases d <;> simp [topic, route?])
      (h .route)
  have hmigrations : ds.filterMap migration? = es.filterMap migration? :=
    filterMap_eq_of_topic (by intro d; cases d <;> simp [topic, migration?])
      (h .migration)
  have hpackages : ds.filterMap package? = es.filterMap package? :=
    filterMap_eq_of_topic (by intro d; cases d <;> simp [topic, package?])
      (h .package)
  have hcollections : ds.filterMap collection? = es.filterMap collection? :=
    filterMap_eq_of_topic (by intro d; cases d <;> simp [topic, collection?])
      (h .collection)
  have hguarded : ds.filterMap guard? = es.filterMap guard? :=
    filterMap_eq_of_topic (by intro d; cases d <;> simp [topic, guard?])
      (h .guard)
  have hframework : ds.filterMap framework? = es.filterMap framework? :=
    filterMap_eq_of_topic (by intro d; cases d <;> simp [topic, framework?])
      (h .framework)
  have henabling : authEnable ∈ ds ↔ authEnable ∈ es := by
    have hmem : ∀ xs : List Directive,
        authEnable ∈ xs ↔ authEnable ∈ xs.filter (·.topic = .enabling) := by
      simp [topic]
    rw [hmem ds, hmem es, h]
  exact {
    port := hport ▸ hs.port
    envFile := henvironment ▸ hs.envFile
    url := hurl ▸ hs.url
    dialect := hdialect ▸ hs.dialect
    strategy := hstrategy ▸ hs.strategy
    enabled := hs.enabled.trans henabling
    middlewares := hmiddlewares ▸ hs.middlewares
    routes := hroutes ▸ hs.routes
    migrations := hmigrations ▸ hs.migrations
    packages := hpackages ▸ hs.packages
    collections := hcollections ▸ hs.collections
    guarded := hguarded ▸ hs.guarded
    frontend := by rw [hs.frontend, hframework, hpackages]
    framework := hframework ▸ hs.framework
    framework_ne := hframework ▸ hs.framework_ne }

def Line.topic? (line : Line) : Option Topic := line.directive?.map topic

theorem filter_directivesOf (lines : List Line) (t : Topic) :
    (directivesOf lines).filter (·.topic = t) =
      ((lines.filter (·.topic? = some t)).map Line.text).filterMap
        fun text => (read text).directive? := by
  rw [filterMap_map, filterMap_filter, directivesOf, filter_filterMap]
  refine filterMap_congr fun line _ => ?_
  cases hd : line.directive? with
  | none => simp [Line.topic?, hd]
  | some d =>
    have hread : (read line.text).directive? = some d := hd
    by_cases ht : d.topic = t <;> simp [Line.topic?, hd, hread, ht]

theorem directivesOf_wellFormed (lines : List Line) : ∀ d ∈ directivesOf lines, d.WellFormed := by
  intro d hd
  obtain ⟨line, -, hline⟩ := mem_filterMap.1 hd
  exact read_wellFormed hline

theorem isMerge_of_ofLines {lines : List Line} {b : Build} (h : Build.ofLines lines = .ok b) :
    b.service.IsMerge (directivesOf lines) := by
  rw [Build.service_ofLines h, afterLines_eq_applyAll]
  exact isMerge_applyAll (directivesOf_wellFormed lines)

/-- The fields of routes of an accepted source have no characters that mean anything in a statement. -/
theorem hasPlainBody_of_ofSource {source : String} {b : Build} (hb : Build.ofSource source = .ok b) :
    ∀ r ∈ b.service.routes, r.HasPlainBody := by
  intro r hr
  rw [(isMerge_of_ofLines hb).routes] at hr
  obtain ⟨d, hd, hroute⟩ := mem_filterMap.1 hr
  have hwell := directivesOf_wellFormed _ d hd
  cases d with
  | route endpoint =>
    obtain rfl := Option.some.inj hroute
    exact hwell.2
  | _ => cases hroute

/-- **A build is the merge of its topics.** The service of a build that succeeds is the merge of the
    directives among its lines.  Hence every list of lines with the same texts, in which the lines of
    each topic stand in the same order, is built as well, and into the same service. -/
theorem isMerge_ofLines_and_interleave {lines : List Line} {b : Build}
    (h : Build.ofLines lines = .ok b) :
    b.service.IsMerge (directivesOf lines) ∧
      ∀ lines' : List Line,
        (lines.map Line.text).Perm (lines'.map Line.text) →
        (∀ t, (lines.filter (·.topic? = some t)).map Line.text =
          (lines'.filter (·.topic? = some t)).map Line.text) →
        ∃ b', Build.ofLines lines' = .ok b' ∧ b'.service = b.service := by
  refine ⟨isMerge_of_ofLines h, fun lines' hperm htopics => ?_⟩
  -- Whether a line is fatal is a matter of its text, so the other lines are built, too.
  have hok : ∀ l ∈ lines', ¬ l.IsFatal := by
    intro l hl
    obtain ⟨l', hl', htext⟩ := List.mem_map.1 (hperm.mem_iff.2 (List.mem_map_of_mem hl))
    rw [Line.IsFatal, ← htext]
    exact Build.exists_ofLines_iff.1 ⟨b, h⟩ l' hl'
  obtain ⟨b', hb'⟩ := Build.exists_ofLines_iff.2 hok
  have hagree : ∀ t, (directivesOf lines).filter (·.topic = t) =
      (directivesOf lines').filter (·.topic = t) := by
    intro t
    rw [filter_directivesOf, filter_directivesOf, htopics t]
  exact ⟨b', hb', (isMerge_of_ofLines hb').unique ((isMerge_of_ofLines h).of_topics hagree)⟩

/-- Two ports with a route between them. -/
def routeBetweenPorts : List Line :=
  [⟨1, "speak at port 80"⟩, ⟨2, "when asked for /a, offer all items from 'a'"⟩,
    ⟨3, "speak at port 90"⟩]

/-- The same lines with the route in front. -/
def routeBeforePorts : List Line :=
  [⟨1, "when asked for /a, offer all items from 'a'"⟩, ⟨2, "speak at port 80"⟩,
    ⟨3, "speak at port 90"⟩]

/-- What both are built into. -/
def routeAndPort : Service where
  port := 90
  routes := [{ method := "GET", path := "/a", action := .listAll, collection := "a" }]

theorem ofLines_routeBetweenPorts : Build.ofLines routeBetweenPorts = .ok { service := routeAndPort } := by
  decide +kernel

theorem interleave_routeBetweenPorts :
    routeAndPort.IsMerge (directivesOf routeBetweenPorts) ∧
      ∃ b', Build.ofLines routeBeforePorts = .ok b' ∧ b'.service = routeAndPort := by
  obtain ⟨hmerge, hinterleave⟩ := isMerge_ofLines_and_interleave ofLines_routeBetweenPorts
  have hroute : (Directive.read "when asked for /a, offer all items from 'a'").directive?.map
      Directive.topic = some .route := by decide +kernel
  have hfirst : (Directive.read "speak at port 80").directive?.map Directive.topic = some .port := by
    decide +kernel
  have hlast : (Directive.read "speak at port 90").directive?.map Directive.topic = some .port := by
    decide +kernel
  refine ⟨hmerge, hinterleave routeBeforePorts (by decide +kernel) ?_⟩
  intro t
  simp only [routeBetweenPorts, routeBeforePorts, List.filter_cons, List.filter_nil, Line.topic?,
    Line.directive?, hroute, hfirst, hlast]
  cases t <;> rfl

end ServiceCompiler
