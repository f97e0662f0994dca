import ServiceCompiler.Proofs.Routes.RoutesPackage

namespace ServiceCompiler

open Code List Route

/-!
# Endpoints of a service

What a service answers for once all its groups are mounted: the router joins the path of a registration
to the path it is mounted at and takes several slashes for one.

* `fullPath` — the path under which a router answers.
* `mountedEndpoints` — all that is registered: registering and logging in, where tokens are used, and the
  registrations of the groups, where there is a database.
* `EndpointClash` — the three ways in which two registrations get the same method and full path.
* `nodup_mountedEndpoints_iff` — no endpoint is registered twice exactly when there is no clash; declared
  routes alone can have one (`not_nodup_mountedEndpoints_slashTwin`).
-/

/-! ### Full paths -/

/-- The path with every run of slashes made one slash. -/
def collapseSlashes : List Char → List Char
  | [] => []
  | c :: cs => if c = '/' ∧ cs.head? = some '/' then collapseSlashes cs else c :: collapseSlashes cs

/-- The path under which a router answers for a path below a mount path. -/
def fullPath (mount path : String) : String :=
  String.ofList (collapseSlashes (mount.toList ++ path.toList))

/-- A path below a mount path: nothing, or something behind a slash. -/
def IsBelow (cs : List Char) : Prop := cs = [] ∨ cs.head? = some '/'

theorem collapseSlashes_append {segment : List Char} (h : '/' ∉ segment) (cs : List Char) :
    collapseSlashes (segment ++ cs) = segment ++ collapseSlashes cs := by
  induction segment with
  | nil => rfl
  | cons c segment ih =>
    obtain ⟨hc, hsegment⟩ : '/' ≠ c ∧ '/' ∉ segment := by simpa using h
    rw [cons_append, collapseSlashes, if_neg (fun hboth => hc hboth.1.symm), ih hsegment]
    rfl

theorem head?_collapseSlashes (cs : List Char) : (collapseSlashes cs).head? = cs.head? := by
  induction cs with
  | nil => rfl
  | cons c cs ih =>
    rw [collapseSlashes]
    split
    · rename_i hboth
      rw [ih, hboth.2, hboth.1]
      rfl
    · rfl

theorem collapseSlashes_eq_nil_iff {cs : List Char} : collapseSlashes cs = [] ↔ cs = [] := by
  rw [← head?_eq_none_iff, head?_collapseSlashes, head?_eq_none_iff]

/-- Below a segment, only what follows the segment is collapsed. -/
theorem toList_fullPath_segment {segment path : String} (hne : segment ≠ "")
    (hslash : '/' ∉ segment.toList) :
    (fullPath ("/" ++ segment) path).toList =
      '/' :: (segment.toList ++ collapseSlashes path.toList) := by
  obtain ⟨c, cs, hcs⟩ := exists_cons_of_ne_nil (l := segment.toList) (by simpa using hne)
  have hc : c ≠ '/' := fun h => hslash (by rw [hcs, h]; exact mem_cons_self)
  have hlist : ("/" ++ segment).toList ++ path.toList = '/' :: (segment.toList ++ path.toList) := by
    rw [String.toList_append]
    rfl
  rw [fullPath, String.toList_ofList, hlist, collapseSlashes, if_neg, collapseSlashes_append hslash]
  rintro ⟨-, hhead⟩
  rw [hcs] at hhead
  exact hc (Option.some.inj hhead)

/-- A segment ends where the first slash behind it stands. -/
theorem segment_append_inj {a b p q : List Char} (ha : '/' ∉ a) (hb : '/' ∉ b) (hp : IsBelow p)
    (hq : IsBelow q) (h : a ++ p = b ++ q) : a = b ∧ p = q := by
  have htake : ∀ s t : List Char, '/' ∉ s → IsBelow t → (s ++ t).takeWhile (· != '/') = s := by
    intro s t hs ht
    have hne : ∀ c ∈ s, (c != '/') = true := by
      intro c hc
      have : c ≠ '/' := fun heq => hs (heq ▸ hc)
      simpa using this
    rw [takeWhile_append_of_pos hne]
    rcases ht with rfl | ht
    · simp
    · obtain ⟨cs, rfl⟩ := head?_eq_some_iff.1 ht
      simp
  have hab : a = b := by rw [← htake a p ha hp, h, htake b q hb hq]
  exact ⟨hab, append_cancel_left (hab ▸ h)⟩

/-! ### Paths of routes -/

namespace Route

variable {r : Route}

theorem slash_notMem_segment (r : Route) : '/' ∉ r.segment.toList := by
  rw [segment, Path.firstSegment]
  split
  · rename_i piece hpiece
    rw [String.toList_ofList]
    intro hmem
    exact (Text.of_mem_splitOn (mem_of_find?_eq_some hpiece) '/' hmem).2 rfl
  · simp

/-- Without a segment, nothing stands between the slashes of a path. -/
theorem pieces_of_segment_eq_empty (h : r.segment = "") : ∀ piece ∈ Path.segments r.path.toList, piece = [] := by
  rw [segment, Path.firstSegment] at h
  split at h
  · rename_i piece hpiece
    have hne : piece ≠ [] := by simpa using find?_some hpiece
    exact absurd (by simpa using h) hne
  · rename_i hnone
    intro piece hpiece
    simpa using find?_eq_none.1 hnone piece hpiece

theorem relative_of_segment_eq_empty (h : r.segment = "") : Path.relative r.path = "" := by
  have hdrop : (Path.segments r.path.toList).dropWhile isEmpty = [] := by
    rw [dropWhile_eq_nil_iff]
    intro piece hpiece
    rw [pieces_of_segment_eq_empty h piece hpiece]
    rfl
  rw [Path.relative, hdrop]

theorem params_of_segment_eq_empty (h : r.segment = "") : Path.params r.path = [] := by
  rw [Path.params, filterMap_eq_nil_iff]
  intro piece hpiece
  rw [pieces_of_segment_eq_empty h piece hpiece]

theorem isBelow_relative (path : String) : IsBelow (Path.relative path).toList := by
  rw [Path.relative]
  split
  · exact .inl rfl
  · exact .inl rfl
  · exact .inr (by rw [String.toList_ofList]; rfl)

theorem isBelow_registeredPath (r : Route) : IsBelow (registeredPath r).toList := by
  have hrelative := isBelow_relative r.path
  rw [registeredPath]
  split
  · rw [String.toList_append]
    rcases hrelative with h | h
    · rw [h]
      exact .inr rfl
    · exact .inr (by rw [head?_append, h]; rfl)
  · exact hrelative

/-- A route without a segment is registered at the mount path, or below it if it retrieves an item. -/
theorem registeredPath_of_segment_eq_empty (h : r.segment = "") :
    registeredPath r = if r.action = .getById then "/:id" else "" := by
  rw [registeredPath, relative_of_segment_eq_empty h, params_of_segment_eq_empty h]
  simp

end Route

/-! ### What is mounted -/

/-- What a router tells requests apart by. -/
structure Endpoint where
  method : String
  path : String
  deriving DecidableEq, Repr

def Address.endpoint (a : Address) : Endpoint := ⟨a.method, fullPath ("/" ++ a.segment) a.path⟩

/-- What registering and logging in are registered as. -/
def authRegistrations : List Registration :=
  [⟨"POST", "/register", false, "authRegister"⟩, ⟨"POST", "/login", false, "authLogin"⟩]

/-- The endpoints of registering and logging in. -/
def authEndpoints : List Endpoint :=
  authRegistrations.map fun reg => ⟨reg.method, fullPath "/auth" reg.path⟩

def groupEndpoints (s : Service) : List Endpoint :=
  ((mountings s (nameGroups (groups s.routes))).map Mounting.address).map Address.endpoint

/-- All endpoints that are registered when a service is mounted. -/
def mountedEndpoints (s : Service) : List Endpoint :=
  (if s.tokenAuth then authEndpoints else []) ++ (if s.hasDatabase then groupEndpoints s else [])

/-- **The ways in which an endpoint is registered twice.** -/
inductive EndpointClash (s : Service) : Prop
  /-- A declared route is the one for registering or logging in. -/
  | login {r : Route} : s.tokenAuth → r ∈ s.routes → r.address.endpoint ∈ authEndpoints → EndpointClash s
  /-- Two routes of a group differ in the number of slashes at some place only. -/
  | slashes {q r : Route} : q ∈ s.routes → r ∈ s.routes → q.method = r.method →
    q.segment = r.segment → registeredPath q ≠ registeredPath r →
    collapseSlashes (registeredPath q).toList = collapseSlashes (registeredPath r).toList →
    EndpointClash s
  /-- An item is retrieved at the root, which adds a parameter, and the same parameter is a group. -/
  | rootItem {q r : Route} : q ∈ s.routes → r ∈ s.routes → q.segment = "" → q.action = .getById →
    r.segment = ":id" → r.method = "GET" → registeredPath r = "" → EndpointClash s

/-! ### Where addresses meet -/

theorem Route.toList_fullPath (r : Route) (h : r.segment ≠ "") :
    r.address.endpoint.path.toList =
      '/' :: (r.segment.toList ++ collapseSlashes (registeredPath r).toList) :=
  toList_fullPath_segment h r.slash_notMem_segment

theorem Route.isBelow_collapsed (r : Route) : IsBelow (collapseSlashes (registeredPath r).toList) := by
  rcases r.isBelow_registeredPath with h | h
  · exact .inl (collapseSlashes_eq_nil_iff.2 h)
  · exact .inr ((head?_collapseSlashes _).trans h)

/-- The root, as a route without a segment is registered. -/
theorem Route.fullPath_root {r : Route} (h : r.segment = "") :
    r.address.endpoint.path = if r.action = .getById then "/:id" else "/" := by
  show fullPath ("/" ++ r.segment) (registeredPath r) = _
  rw [h, registeredPath_of_segment_eq_empty h]
  split <;> decide

/-- A route without a segment and one with a segment meet only where the parameter of the first is the
    segment of the second. -/
theorem meet_root {q r : Route} (hq : q.segment = "") (hr : r.segment ≠ "")
    (h : q.address.endpoint.path = r.address.endpoint.path) :
    q.action = .getById ∧ r.segment = ":id" ∧ registeredPath r = "" := by
  have hlist := r.toList_fullPath hr
  rw [← h, fullPath_root hq] at hlist
  split at hlist
  · rename_i haction
    have htail : ":id".toList ++ [] = r.segment.toList ++ collapseSlashes (registeredPath r).toList :=
      (cons.inj hlist).2
    obtain ⟨hsegment, hpath⟩ := segment_append_inj (by decide) r.slash_notMem_segment (.inl rfl)
      r.isBelow_collapsed htail
    refine ⟨haction, (String.toList_inj.1 hsegment).symm, ?_⟩
    exact String.toList_eq_nil_iff.1 (collapseSlashes_eq_nil_iff.1 hpath.symm)
  · have htail : [] = r.segment.toList ++ collapseSlashes (registeredPath r).toList :=
      (cons.inj hlist).2
    exact absurd (String.toList_eq_nil_iff.1 (append_eq_nil_iff.1 htail.symm).1) hr

/-- Routes with segments meet only in one group, where their paths differ in slashes. -/
theorem meet_segments {q r : Route} (hq : q.segment ≠ "") (hr : r.segment ≠ "") :
    q.address.endpoint.path = r.address.endpoint.path ↔
      q.segment = r.segment ∧
        collapseSlashes (registeredPath q).toList = collapseSlashes (registeredPath r).toList := by
  rw [← String.toList_inj, q.toList_fullPath hq, r.toList_fullPath hr, cons.injEq,
    and_iff_right rfl, ← String.toList_inj]
  constructor
  · exact segment_append_inj q.slash_notMem_segment r.slash_notMem_segment q.isBelow_collapsed
      r.isBelow_collapsed
  · rintro ⟨hsegment, hpath⟩
    rw [hsegment, hpath]

section Declared

variable {s : Service} (hs : s.WellFormed)
include hs

/-- **Declared routes meet only where they clash.** -/
theorem address_eq_or_clash {q r : Route} (hq : q ∈ s.routes) (hr : r ∈ s.routes)
    (h : q.address.endpoint = r.address.endpoint) : q.address = r.address ∨ EndpointClash s := by
  have hmethod : q.method = r.method := congrArg Endpoint.method h
  have hpath := congrArg Endpoint.path h
  by_cases hq0 : q.segment = "" <;> by_cases hr0 : r.segment = ""
  · -- At the root, a path tells whether an item is retrieved, and that is all a registration depends on.
    have hitem : q.action = .getById ↔ r.action = .getById := by
      rw [fullPath_root hq0, fullPath_root hr0] at hpath
      by_cases hqa : q.action = .getById <;> by_cases hra : r.action = .getById <;>
        simp_all
    left
    rw [address, address, hq0, hr0, hmethod, registeredPath_of_segment_eq_empty hq0,
      registeredPath_of_segment_eq_empty hr0]
    simp only [hitem]
  · obtain ⟨haction, hsegment, hbelow⟩ := meet_root hq0 hr0 hpath
    have hget : r.method = "GET" := hmethod ▸ (hs.routes q hq).get_iff.2 (.inr haction)
    exact .inr (.rootItem hq hr hq0 haction hsegment hget hbelow)
  · obtain ⟨haction, hsegment, hbelow⟩ := meet_root hr0 hq0 hpath.symm
    have hget : q.method = "GET" := hmethod ▸ (hs.routes r hr).get_iff.2 (.inr haction)
    exact .inr (.rootItem hr hq hr0 haction hsegment hget hbelow)
  · obtain ⟨hsegment, hcollapsed⟩ := (meet_segments hq0 hr0).1 hpath
    by_cases hbelow : registeredPath q = registeredPath r
    · left
      rw [address, address, hsegment, hmethod, hbelow]
    · exact .inr (.slashes hq hr hmethod hsegment hbelow hcollapsed)

/-- **A clash is where a declared route meets another address** or the routes for registering and
    logging in. -/
theorem meets_of_clash (h : EndpointClash s) :
    (s.tokenAuth ∧ ∃ r ∈ s.routes, r.address.endpoint ∈ authEndpoints) ∨
      ∃ q ∈ s.routes, ∃ r ∈ s.routes, q.address ≠ r.address ∧
        q.address.endpoint = r.address.endpoint := by
  cases h with
  | login htoken hr hmem => exact .inl ⟨htoken, _, hr, hmem⟩
  | @slashes q r hq hr hmethod hsegment hne hcollapsed =>
    refine .inr ⟨q, hq, r, hr, fun h => hne (congrArg Address.path h), ?_⟩
    have hsegment0 : q.segment ≠ "" := by
      -- At the root there are no slashes to differ in.
      intro hq0
      have hroot := hcollapsed
      rw [registeredPath_of_segment_eq_empty hq0,
        registeredPath_of_segment_eq_empty (hsegment ▸ hq0)] at hroot
      apply hne
      rw [registeredPath_of_segment_eq_empty hq0, registeredPath_of_segment_eq_empty (hsegment ▸ hq0)]
      split <;> split <;> simp_all [collapseSlashes]
    have hpath := (meet_segments hsegment0 (hsegment ▸ hsegment0)).2 ⟨hsegment, hcollapsed⟩
    show Endpoint.mk q.method q.address.endpoint.path = ⟨r.method, r.address.endpoint.path⟩
    rw [hmethod, hpath]
  | @rootItem q r hq hr hq0 haction hsegment hmethod hbelow =>
    have hr0 : r.segment ≠ "" := by rw [hsegment]; decide
    refine .inr ⟨q, hq, r, hr, fun h => hr0 ((congrArg Address.segment h).symm.trans hq0), ?_⟩
    have hget : q.method = "GET" := (hs.routes q hq).get_iff.2 (.inr haction)
    have hpath : q.address.endpoint.path = r.address.endpoint.path := by
      rw [fullPath_root hq0, if_pos haction, ← String.toList_inj, r.toList_fullPath hr0, hsegment, hbelow]
      rfl
    show Endpoint.mk q.method q.address.endpoint.path = ⟨r.method, r.address.endpoint.path⟩
    rw [hget, hmethod, hpath]

end Declared

/-! ### What is registered twice -/

section Mounted

variable {s : Service} (hs : s.WellFormed)
include hs

/-- The addresses of the groups are those of the declared routes. -/
theorem mem_addresses_iff {a : Address} :
    a ∈ (mountings s (nameGroups (groups s.routes))).map Mounting.address ↔
      ∃ r ∈ s.routes, r.address = a := by
  constructor
  · intro h
    obtain ⟨m, hm, rfl⟩ := mem_map.1 h
    obtain ⟨r, hr, heq⟩ := registered_declared hm
    exact ⟨r, hr, heq.symm⟩
  · rintro ⟨r, hr, rfl⟩
    obtain ⟨g, -, n, -, -, hfilter⟩ := registered_once hs hr
    have hmem : (⟨g.segment, n.registration s⟩ : Mounting) ∈
        (mountings s (nameGroups (groups s.routes))).filter (·.address = r.address) := by
      rw [hfilter]
      exact mem_singleton_self _
    obtain ⟨hmounted, haddress⟩ := mem_filter.1 hmem
    exact mem_map.2 ⟨_, hmounted, of_decide_eq_true haddress⟩

theorem mem_groupEndpoints_iff {e : Endpoint} : e ∈ groupEndpoints s ↔ ∃ r ∈ s.routes, r.address.endpoint = e := by
  rw [groupEndpoints, mem_map]
  constructor
  · rintro ⟨a, ha, rfl⟩
    obtain ⟨r, hr, rfl⟩ := (mem_addresses_iff hs).1 ha
    exact ⟨r, hr, rfl⟩
  · rintro ⟨r, hr, rfl⟩
    exact ⟨r.address, (mem_addresses_iff hs).2 ⟨r, hr, rfl⟩, rfl⟩

/-- The groups register no endpoint twice if declared routes meet only where they have one address. -/
theorem nodup_groupEndpoints_iff :
    (groupEndpoints s).Nodup ↔
      ∀ q ∈ s.routes, ∀ r ∈ s.routes, q.address.endpoint = r.address.endpoint →
        q.address = r.address := by
  have hnodup := nodup_mountings s (firstAppearances_namedSegments s.routes).nodup
  rw [groupEndpoints, nodup_map_iff_inj_on hnodup]
  constructor
  · intro h q hq r hr
    exact h _ ((mem_addresses_iff hs).2 ⟨q, hq, rfl⟩) _ ((mem_addresses_iff hs).2 ⟨r, hr, rfl⟩)
  · intro h a ha b hb
    obtain ⟨q, hq, rfl⟩ := (mem_addresses_iff hs).1 ha
    obtain ⟨r, hr, rfl⟩ := (mem_addresses_iff hs).1 hb
    exact h q hq r hr

theorem nodup_mountedEndpoints_of_wellFormed : (mountedEndpoints s).Nodup ↔ ¬ (s.hasDatabase ∧ EndpointClash s) := by
  have hauth : (if s.tokenAuth then authEndpoints else []).Nodup := by
    split
    · decide
    · exact nodup_nil
  by_cases hdb : s.hasDatabase
  · rw [mountedEndpoints, if_pos hdb, nodup_append', nodup_groupEndpoints_iff hs]
    constructor
    · rintro ⟨-, hgroups, hdisjoint⟩ ⟨-, hclash⟩
      rcases meets_of_clash hs hclash with ⟨htoken, r, hr, hmem⟩ | ⟨q, hq, r, hr, hne, heq⟩
      · rw [if_pos htoken] at hdisjoint
        exact hdisjoint hmem ((mem_groupEndpoints_iff hs).2 ⟨r, hr, rfl⟩)
      · exact hne (hgroups q hq r hr heq)
    · intro hclash
      have hnone : ¬ EndpointClash s := fun h => hclash ⟨hdb, h⟩
      refine ⟨hauth, fun q hq r hr heq => ?_, fun e he hgroup => ?_⟩
      · exact (address_eq_or_clash hs hq hr heq).resolve_right hnone
      · obtain ⟨r, hr, rfl⟩ := (mem_groupEndpoints_iff hs).1 hgroup
        split at he
        · rename_i htoken
          exact hnone (.login htoken hr he)
        · exact absurd he not_mem_nil
  · rw [mountedEndpoints, if_neg hdb, append_nil]
    exact iff_of_true hauth fun h => hdb h.1

end Mounted

/-- **No endpoint is registered twice exactly when there is no clash.** For every source that is built:
    registering and logging in are registered as listed, and over all that is mounted, methods and full
    paths differ unless there is a database and one of the three clashes. -/
theorem nodup_mountedEndpoints_iff {source : String} {b : Build} (hb : Build.ofSource source = .ok b) :
    registerAuthFunction.lines =
        block "func RegisterAuth(r gin.IRouter)" (authRegistrations.map (·.line)) ∧
      ((mountedEndpoints b.service).Nodup ↔
        ¬ (b.service.hasDatabase ∧ EndpointClash b.service)) := by
  have hs := wellFormed_of_ofSource hb
  exact ⟨by decide +kernel, nodup_mountedEndpoints_of_wellFormed hs⟩

/-- Two routes of one group that differ in a slash at the end. -/
def slashTwin : String :=
  "whisper: db type mysql\nwhen asked for /items, retrieve item by id from 'items'\n" ++
  "when asked for /items/, retrieve item by id from 'items'\n"

def slashTwinService : Service where
  database := { dialect := "mysql" }
  routes :=
    [ { method := "GET", path := "/items", action := .getById, collection := "items" },
      { method := "GET", path := "/items/", action := .getById, collection := "items" } ]

theorem ofSource_slashTwin : Build.ofSource slashTwin = .ok { service := slashTwinService } := by
  decide +kernel

theorem mountedEndpoints_slashTwin_iff :
    (mountedEndpoints slashTwinService).Nodup ↔
      ¬ (slashTwinService.hasDatabase ∧ EndpointClash slashTwinService) :=
  (nodup_mountedEndpoints_iff ofSource_slashTwin).2

/-- The item is registered twice below its group. -/
theorem not_nodup_mountedEndpoints_slashTwin :
    Build.ofSource slashTwin = .ok { service := slashTwinService } ∧
      mountedEndpoints slashTwinService = [⟨"GET", "/items/:id"⟩, ⟨"GET", "/items/:id"⟩] ∧
      ¬ (mountedEndpoints slashTwinService).Nodup := by
  have hmounted : mountedEndpoints slashTwinService =
      [⟨"GET", "/items/:id"⟩, ⟨"GET", "/items/:id"⟩] := by decide +kernel
  refine ⟨ofSource_slashTwin, hmounted, ?_⟩
  rw [hmounted]
  decide

end ServiceCompiler
