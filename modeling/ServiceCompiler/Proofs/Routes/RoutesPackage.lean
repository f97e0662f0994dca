import Mathlib.Data.List.Find
import ServiceCompiler.Code.Artifact
import ServiceCompiler.Proofs.Directive.WellFormed
import ServiceCompiler.Proofs.Naming.Identifier
import ServiceCompiler.Proofs.Routes.Grouping
import ServiceCompiler.Proofs.Routes.Registration

namespace ServiceCompiler

open Code List Route NamedGroup Generator

/-!
# The routes package is exact

Between the routes of a source and the generated routes package nothing is lost and nothing is doubled.

* `Route.address` — where a service answers for a route: below which segment, under which method and
  path.  `mountings` lists what all groups of a service register, with their segments.
* `nodup_mountings` — no address is registered twice.
* `RoutesPackage` — the exact account: registrations, functions of the group files, and calls of the
  function that mounts the groups.
* `routesPackage_of_wellFormed` — it holds of every well-formed service with a database, in particular
  of those that lines build.
-/

/-! ### Addresses -/

variable {groups : List NamedGroup} {name : String} {d : Declaration} {n : NamedRoute} (settings : Settings)

/-- Where a service answers. -/
structure Address where
  /-- The segment below which the group is mounted. -/
  segment : String
  method : String
  /-- The path below the mount point. -/
  path : String
  deriving DecidableEq, Repr

/-- Where a service answers for a route. -/
def Route.address (r : Route) : Address := ⟨r.segment, r.method, registeredPath r⟩

/-- A registration below the segment of its group. -/
structure Mounting where
  segment : String
  registration : Registration
  deriving DecidableEq, Repr

def Mounting.address (m : Mounting) : Address :=
  ⟨m.segment, m.registration.method, m.registration.path⟩

/-- What all groups register. -/
def mountings (s : Service) (groups : List NamedGroup) : List Mounting :=
  groups.flatMap fun g => (registrations s g).map (Mounting.mk g.segment)

theorem mem_mountings_iff {s : Service} {m : Mounting} :
    m ∈ mountings s groups ↔
      ∃ g ∈ groups, ∃ n ∈ mountedRoutes g, m = ⟨g.segment, n.registration s⟩ := by
  simp only [mountings, mem_flatMap, registrations_eq_map, map_map, mem_map, Function.comp, eq_comm]

/-- **No address is registered twice.** Groups differ in their segments, and a group registers each
    method and path once. -/
theorem nodup_mountings (s : Service) (hgroups : (groups.map (·.segment)).Nodup) :
    ((mountings s groups).map Mounting.address).Nodup := by
  rw [mountings, map_flatMap, nodup_flatMap]
  constructor
  · -- Inside a group, addresses are told apart by the key that the group itself compares.
    intro g _
    refine Nodup.of_map (fun a : Address => a.method ++ " " ++ a.path) ?_
    have hnodup := nodup_mountedRoutes g
    rw [registrations_eq_map]
    simp only [map_map]
    exact hnodup
  · -- Across groups they are told apart by the segment.
    refine (pairwise_map.1 hgroups).imp ?_
    intro g h hne a hg hh
    apply hne
    simp only [map_map, mem_map] at hg hh
    obtain ⟨_, -, rfl⟩ := hg
    obtain ⟨_, -, heq⟩ := hh
    exact (congrArg Address.segment heq).symm

/-! ### Methods of well-formed routes -/

theorem Route.WellFormed.method {r : Route} (hr : r.WellFormed) : r.method = "GET" ∨ r.method = "POST" := by
  rcases hr.action with h | h | h
  · exact .inl (hr.get_iff.2 (.inl h))
  · exact .inl (hr.get_iff.2 (.inr h))
  · exact .inr (hr.post_iff.2 h)

theorem Route.WellFormed.isName_method {r : Route} (hr : r.WellFormed) : Fragment.isName r.method.toList := by
  rcases hr.method with h | h <;> rw [h] <;> decide +kernel

/-- The method and the path can be read off the text under which routes are compared. -/
theorem Route.WellFormed.endpoint_inj {q r : Route} (hq : q.WellFormed) (hr : r.WellFormed)
    (h : q.endpoint = r.endpoint) :
    q.method = r.method ∧ registeredPath q = registeredPath r := by
  simp only [endpoint] at h
  rcases hq.method with hqm | hqm <;> rcases hr.method with hrm | hrm <;>
    rw [hqm, hrm] at h ⊢
  · exact ⟨rfl, (String.append_right_inj _).1 h⟩
  · exact absurd (congrArg (fun t => t.toList.head?) h) (by simp)
  · exact absurd (congrArg (fun t => t.toList.head?) h) (by simp)
  · exact ⟨rfl, (String.append_right_inj _).1 h⟩

/-! ### Registrations of declared routes -/

section Registered

variable {s : Service} (hs : s.WellFormed) {g : NamedGroup}
  (hg : g ∈ nameGroups (Route.groups s.routes)) {q r : Route}
include hs

/-- Routes below one segment are compared equal exactly when they have one address. -/
theorem endpoint_eq_iff_address (hq : q ∈ s.routes) (hr : r ∈ s.routes)
    (hsegment : q.segment = r.segment) : q.endpoint = r.endpoint ↔ q.address = r.address := by
  constructor
  · intro h
    obtain ⟨hmethod, hpath⟩ := (hs.routes q hq).endpoint_inj (hs.routes r hr) h
    rw [address, address, hsegment, hmethod, hpath]
  · intro h
    exact endpoint_congr (congrArg Address.method h) (congrArg Address.path h)

include hg

/-- In a group, the first route of an endpoint is the first one of its address. -/
theorem find?_endpoint_eq_find?_address (hr : r ∈ g.routes) :
    g.namedRoutes.find? (·.endpoint == r.endpoint) =
      g.namedRoutes.find? (·.route.address = r.address) := by
  obtain ⟨hmem, hsegment⟩ := (mem_routes_iff hg).1 hr
  refine find?_congr fun n hn => ?_
  obtain ⟨hmem', hsegment'⟩ :=
    (mem_routes_iff hg).1 ((named_of_mem_nameGroups hg).route_mem hn)
  have hiff := endpoint_eq_iff_address hs hmem' hmem (hsegment'.trans hsegment.symm)
  rw [Bool.eq_iff_iff, beq_iff_eq, decide_eq_true_iff]
  exact hiff

/-- The first route of an address is in the group of its segment, and the first one there. -/
theorem find?_routes_eq_firstLike (hr : r ∈ g.routes) : s.routes.find? (·.address = r.address) = g.firstLike r := by
  obtain ⟨hmem, hsegment⟩ := (mem_routes_iff hg).1 hr
  rw [firstLike, routes_eq hg, find?_filter]
  refine find?_congr fun q hq => ?_
  rw [decide_eq_decide, beq_iff_eq, beq_iff_eq]
  constructor
  · intro h
    have hq' : q.segment = r.segment := congrArg Address.segment h
    exact ⟨hq'.trans hsegment, (endpoint_eq_iff_address hs hq hmem hq').2 h⟩
  · rintro ⟨hq', h⟩
    exact (endpoint_eq_iff_address hs hq hmem (hq'.trans hsegment.symm)).1 h

end Registered

/-- **Each declared route is registered once**, with the handler of the first route of its address. -/
theorem registered_once {s : Service} (hs : s.WellFormed) {r : Route} (hr : r ∈ s.routes) :
    ∃ g ∈ nameGroups (Route.groups s.routes), ∃ n : NamedRoute,
      s.routes.find? (·.address = r.address) = some n.route ∧
      g.namedRoutes.find? (·.route.address = r.address) = some n ∧
      (mountings s (nameGroups (Route.groups s.routes))).filter (·.address = r.address) =
        [⟨g.segment, n.registration s⟩] := by
  obtain ⟨g, hg, hsegment, hmem⟩ := exists_group hr
  obtain ⟨n, hn, hend, hfirst⟩ := exists_mounted (named_of_mem_nameGroups hg) hmem
  have hfind := mem_mountedRoutes_iff.1 hn
  -- The group compares keys, not addresses; for well-formed routes this is the same.
  rw [hend, find?_endpoint_eq_find?_address hs hg hmem] at hfind
  refine ⟨g, hg, n, (find?_routes_eq_firstLike hs hg hmem).trans hfirst, hfind, ?_⟩
  have haddress : n.route.address = r.address := by simpa using find?_some hfind
  have hmounting : (⟨g.segment, n.registration s⟩ : Mounting) ∈
      mountings s (nameGroups (Route.groups s.routes)) :=
    mem_mountings_iff.2 ⟨g, hg, n, hn, rfl⟩
  have hsame : (⟨g.segment, n.registration s⟩ : Mounting).address = r.address := by
    rw [← haddress, Mounting.address, address, hsegment,
      ← show n.route.segment = r.segment from congrArg Address.segment haddress]
    rfl
  rw [← hsame]
  exact filter_eq_singleton (nodup_mountings s (firstAppearances_namedSegments s.routes).nodup)
    hmounting

/-- **Nothing else is registered.** -/
theorem registered_declared {s : Service} {m : Mounting}
    (hm : m ∈ mountings s (nameGroups (Route.groups s.routes))) :
    ∃ r ∈ s.routes, m.address = r.address := by
  obtain ⟨g, hg, n, hn, rfl⟩ := mem_mountings_iff.1 hm
  obtain ⟨hmem, hsegment⟩ := (mem_routes_iff hg).1
    ((named_of_mem_nameGroups hg).route_mem ((mountedRoutes_sublist g).subset hn))
  exact ⟨n.route, hmem, by rw [Mounting.address, address, hsegment]; rfl⟩

/-! ### Functions of the group files -/

/-- The text up to its first opening parenthesis: the name of what is called or declared. -/
def beforeParen (cs : List Char) : String := String.ofList (cs.takeWhile (· != '('))

theorem beforeParen_append (h : '(' ∉ name.toList) (tail : List Char) :
    beforeParen (name.toList ++ '(' :: tail) = name := by
  have hname : ∀ c ∈ name.toList, (c != '(') = true := by
    intro c hc
    have hne : c ≠ '(' := fun heq => h (heq ▸ hc)
    simpa using hne
  rw [beforeParen, takeWhile_append_of_pos hname]
  simp

/-- The name of the function that a declaration defines. -/
def Code.Declaration.functionName? (d : Declaration) : Option String :=
  match d.kind, d.lines with
  | .function, line :: _ => (Text.stripLead? "func ".toList line.toList).map beforeParen
  | _, _ => none

/-- A function is named by what stands between the key word and the parameters. -/
theorem functionName?_of_head (tail : String) {rest : List String} (hkind : d.kind = .function)
    (hparen : '(' ∉ name.toList) (hlines : d.lines = ("func " ++ (name ++ ("(" ++ tail))) :: rest) :
    d.functionName? = some name := by
  have hhead : ("func " ++ (name ++ ("(" ++ tail))).toList =
      "func ".toList ++ (name.toList ++ '(' :: tail.toList) := by
    simp
  rw [Declaration.functionName?, hkind, hlines]
  simp only
  rw [hhead, Text.stripLead?_append, Option.map_some, beforeParen_append hparen]

theorem functionName?_of_lines (parameters : String) {body : List String} (hkind : d.kind = .function)
    (hparen : '(' ∉ name.toList) (hlines : d.lines = block ("func " ++ (name ++ ("(" ++ parameters))) body) :
    d.functionName? = some name := by
  have hhead : d.lines =
      ("func " ++ (name ++ ("(" ++ (parameters ++ " \x7b")))) :: (indent body ++ ["\x7d" ++ ""]) := by
    rw [hlines, block, blockWith]
    simp [String.append_assoc]
  exact functionName?_of_head (parameters ++ " \x7b") hkind hparen hhead

theorem functionName?_of_handlerFunction? {e : Engine} (hd : handlerFunction? e n = some d)
    (hparen : '(' ∉ n.handler.toList) : d.functionName? = some n.handler := by
  obtain ⟨b, -, rfl⟩ := Option.map_eq_some_iff.1 hd
  exact functionName?_of_lines "c *gin.Context)" rfl hparen rfl

theorem exists_handlerStatement (e : Engine) {r : Route} (hr : r.WellFormed) : ∃ b, handlerStatement? e r = some b := by
  rw [handlerStatement?]
  rcases hr.action with h | h | h <;> rw [h] <;> exact ⟨_, rfl⟩

/-- A route with a known action has a handler function of its name. -/
theorem exists_handlerFunction (e : Engine) (hn : n.route.WellFormed) (hparen : '(' ∉ n.handler.toList) :
    ∃ d, handlerFunction? e n = some d ∧ d.functionName? = some n.handler := by
  obtain ⟨b, hb⟩ := exists_handlerStatement e hn
  obtain ⟨d, hd⟩ : ∃ d, handlerFunction? e n = some d := by
    rw [handlerFunction?, hb]
    exact ⟨_, rfl⟩
  exact ⟨d, hd, functionName?_of_handlerFunction? hd hparen⟩

/-- Functions that are there for every member of a list: one for each, in order. -/
theorem map_filterMap_eq_map {α β γ : Type} {f : α → Option β} {name : β → γ} {wanted : α → γ}
    {xs : List α} (h : ∀ a ∈ xs, ∃ b, f a = some b ∧ name b = wanted a) :
    (xs.filterMap f).map name = xs.map wanted ∧ (xs.filterMap f).map some = xs.map f := by
  induction xs with
  | nil => exact ⟨rfl, rfl⟩
  | cons a xs ih =>
    obtain ⟨ha, hxs⟩ := forall_mem_cons.1 h
    obtain ⟨b, hb, hname⟩ := ha
    obtain ⟨ih₁, ih₂⟩ := ih hxs
    rw [filterMap_cons_some hb]
    exact ⟨by rw [map_cons, map_cons, hname, ih₁], by rw [map_cons, map_cons, hb, ih₂]⟩

/-! ### Names of one group -/

section Group

variable {routes : List Route} {g : NamedGroup} (hg : g ∈ nameGroups (Route.groups routes))
include hg

theorem nodup_identifiers_group : g.identifiers.Nodup :=
  (nodup_flatMap.1 (nodup_identifiers (Route.groups routes)).1).1 g hg

theorem nodup_handlers : (g.namedRoutes.map NamedRoute.handler).Nodup := by
  rw [(named_of_mem_nameGroups hg).map_handler]
  exact (nodup_cons.1 (nodup_identifiers_group hg)).2

theorem handler_mem (hn : n ∈ g.namedRoutes) : n.handler ∈ g.handlers := by
  rw [← (named_of_mem_nameGroups hg).map_handler]
  exact mem_map_of_mem hn

/-- The function that registers a group and the handlers that it registers are distinct. -/
theorem nodup_register_handlers (s : Service) : (g.register :: (registrations s g).map (·.handler)).Nodup := by
  have hmap : (registrations s g).map (·.handler) = (mountedRoutes g).map NamedRoute.handler := by
    rw [registrations_eq_map, map_map]
    rfl
  have hsub : ((registrations s g).map (·.handler)).Sublist g.handlers := by
    rw [hmap, ← (named_of_mem_nameGroups hg).map_handler]
    exact (mountedRoutes_sublist g).map _
  exact (hsub.cons_cons g.register).nodup (nodup_identifiers_group hg)

/-- The handler of a route that is left out is registered for no other one. -/
theorem handler_notMem_registrations (s : Service) (hn : n ∈ g.namedRoutes) (hout : n ∉ mountedRoutes g) :
    n.handler ∉ (registrations s g).map (·.handler) := by
  rw [registrations_eq_map, map_map, mem_map]
  rintro ⟨m, hm, heq⟩
  have hsame : m = n :=
    inj_on_of_nodup_map (nodup_handlers hg) ((mountedRoutes_sublist g).subset hm) hn heq
  exact hout (hsame ▸ hm)

end Group

/-! ### Calls of the mounting function -/

/-- The name of the function that a line calls first. -/
def calledName (line : String) : String := beforeParen line.toList

theorem calledName_mountLine {register : String} (h : '(' ∉ register.toList) (path : String) :
    calledName (mountLine register path) = register := by
  have hline : (mountLine register path).toList =
      register.toList ++ '(' :: (", ".intercalate [call "r.Group" [lit path]] ++ ")").toList := by
    rw [mountLine, call]
    simp
  rw [calledName, hline, beforeParen_append h]

section Mount

variable {routes : List Route}

theorem register_mem_identifiers {register : String} (h : register ∈ groups.map (·.register)) :
    register ∈ groups.flatMap identifiers := by
  obtain ⟨g, hg, rfl⟩ := mem_map.1 h
  exact mem_flatMap.2 ⟨g, hg, mem_cons_self⟩

theorem nodup_registers (routes : List Route) : ((nameGroups (Route.groups routes)).map (·.register)).Nodup := by
  obtain ⟨-, hdisjoint⟩ := nodup_flatMap.1 (nodup_identifiers (Route.groups routes)).1
  refine pairwise_map.2 (hdisjoint.imp ?_)
  intro g h hgh heq
  exact hgh (mem_cons_self (a := g.register)) (heq ▸ mem_cons_self)

/-- A line that begins otherwise than with a capital R calls no group. -/
theorem notMem_registers_of_head (h : name.toList.head? ≠ some 'R') :
    name ∉ (nameGroups (Route.groups routes)).map (·.register) := by
  intro hmem
  obtain ⟨g, hg, rfl⟩ := mem_map.1 hmem
  exact h (named_of_mem_nameGroups hg).head_register

/-- Lines that call no group are left out when the calls of the groups are looked for. -/
theorem filter_calledName_eq_nil {lines : List String}
    (h : ∀ line ∈ lines, calledName line ∉ (nameGroups (Route.groups routes)).map (·.register)) :
    lines.filter (calledName · ∈ (nameGroups (Route.groups routes)).map (·.register)) = [] := by
  rw [filter_eq_nil_iff]
  intro line hline
  rw [decide_eq_true_iff]
  exact h line hline

/-- The lines that mount the groups call them, all of them. -/
theorem filter_mountLines :
    ((nameGroups (Route.groups routes)).map fun g => mountLine g.register g.mountPath).filter
        (calledName · ∈ (nameGroups (Route.groups routes)).map (·.register)) =
      (nameGroups (Route.groups routes)).map fun g => mountLine g.register g.mountPath := by
  rw [filter_eq_self]
  intro line hline
  obtain ⟨g, hg, rfl⟩ := mem_map.1 hline
  rw [decide_eq_true_iff, calledName_mountLine]
  · exact mem_map_of_mem hg
  · exact (named_of_mem_nameGroups hg).paren_notMem _ mem_cons_self

/-- **Each group is mounted once.** The lines of the mounting function that call a group are one for
    each group, in their order. -/
theorem filter_mountBody (s : Service) (hasEngine : Bool) (routes : List Route) :
    (mountBody s hasEngine (nameGroups (Route.groups routes))).filter
        (calledName · ∈ (nameGroups (Route.groups routes)).map (·.register)) =
      (nameGroups (Route.groups routes)).map fun g => mountLine g.register g.mountPath := by
  have hwait : (if hasEngine then ifFails "err := db.Wait(ctx)" ["return err"] else []).filter
      (calledName · ∈ (nameGroups (Route.groups routes)).map (·.register)) = [] := by
    refine filter_calledName_eq_nil fun line hline => ?_
    have hlines : ∀ l ∈ ifFails "err := db.Wait(ctx)" ["return err"],
        (calledName l).toList.head? ≠ some 'R' := by decide +kernel
    split at hline
    · exact notMem_registers_of_head (hlines line hline)
    · simp at hline
  -- The name of the login routes begins as those of the groups do, but it is taken before them.
  have hauth : (if s.tokenAuth then [mountLine "RegisterAuth" "/auth"] else []).filter
      (calledName · ∈ (nameGroups (Route.groups routes)).map (·.register)) = [] := by
    refine filter_calledName_eq_nil fun line hline => ?_
    split at hline
    · rw [mem_singleton.1 hline, calledName_mountLine (by decide)]
      intro hmem
      exact (nodup_identifiers (Route.groups routes)).2 _ (register_mem_identifiers hmem) (by decide)
    · simp at hline
  have hreturn : ["return nil"].filter
      (calledName · ∈ (nameGroups (Route.groups routes)).map (·.register)) = [] := by
    refine filter_calledName_eq_nil fun line hline => ?_
    rw [mem_singleton.1 hline]
    exact notMem_registers_of_head (by decide)
  rw [mountBody, filter_append, filter_append, filter_append, hwait, hauth, filter_mountLines, hreturn]
  simp

end Mount

/-! ### The package -/

/-- **The exact account** of the routes package that a generator makes for an engine. -/
structure RoutesPackage (gen : Generator) (e : Engine) : Prop where
  /-- For every declared route there is exactly one registration at its address, with the handler of
      the first declared route of that address. -/
  registered : ∀ r ∈ gen.service.routes, ∃ g ∈ gen.groups, ∃ n : NamedRoute,
    gen.service.routes.find? (·.address = r.address) = some n.route ∧
    g.namedRoutes.find? (·.route.address = r.address) = some n ∧
    (mountings gen.service gen.groups).filter (·.address = r.address) =
      [⟨g.segment, n.registration gen.service⟩]
  /-- There are no other registrations. -/
  declared : ∀ m ∈ mountings gen.service gen.groups, ∃ r ∈ gen.service.routes, m.address = r.address
  /-- Each group has a file whose first function has a line for each registration.  The functions of
      the file are this one and the handlers that are registered, each once; a route that is not the
      first one of its address leaves no function. -/
  files : ∀ g ∈ gen.groups, ∃ file f rest,
    ⟨groupPath g, .ok (some file)⟩ ∈ gen.tasks ∧
    file.declarations = f :: rest ∧
    f.lines = block ("func " ++ g.register ++ "(r gin.IRouter)")
      ((registrations gen.service g).map (·.line)) ∧
    rest.map some = (mountedRoutes g).map (handlerFunction? e) ∧
    file.declarations.map (·.functionName?) =
      (g.register :: (registrations gen.service g).map (·.handler)).map some ∧
    (g.register :: (registrations gen.service g).map (·.handler)).Nodup ∧
    ∀ n ∈ g.namedRoutes, g.namedRoutes.find? (·.route.address = n.route.address) ≠ some n →
      n.handler ∉ (registrations gen.service g).map (·.handler)
  /-- The mounting function calls each group once, at its mount path, in the order in which the segments
      of the groups appear. -/
  mounts : ∃ file d body,
    ⟨"routes/index.go", .ok (some file)⟩ ∈ gen.tasks ∧
    file.declarations = [d] ∧
    d.lines = block "func Mount(ctx context.Context, r gin.IRouter) error" body ∧
    body.filter (calledName · ∈ gen.groups.map (·.register)) =
      gen.groups.map (fun g => mountLine g.register g.mountPath) ∧
    (gen.groups.map (·.register)).Nodup ∧
    FirstAppearances (gen.service.routes.map segment) (gen.groups.map (·.segment))

/-- The generator of a well-formed service with a database has an engine. -/
theorem exists_generator {s : Service} (hs : s.WellFormed) (hdb : s.hasDatabase) :
    ∃ e, ofService settings s = .ok { service := s, settings, engine := some e } := by
  obtain ⟨e, he⟩ := hs.exists_engine hdb
  exact ⟨e, by rw [ofService, if_pos hdb, he]; rfl⟩

/-- What is generated for a service with a database is generated for the engine. -/
theorem target_of_hasDatabase {s : Service} (hdb : s.hasDatabase) (e : Engine) :
    target { service := s, settings, engine := some e } = some e :=
  if_pos hdb

theorem groupFile_exact (e : Engine) {s : Service} (hs : s.WellFormed) {g : NamedGroup}
    (hg : g ∈ nameGroups (Route.groups s.routes)) :
    ∃ file f rest,
      groupFile? s (some e) g = some file ∧
      file.declarations = f :: rest ∧
      f.lines = block ("func " ++ g.register ++ "(r gin.IRouter)")
        ((registrations s g).map (·.line)) ∧
      rest.map some = (mountedRoutes g).map (handlerFunction? e) ∧
      file.declarations.map (·.functionName?) =
        (g.register :: (registrations s g).map (·.handler)).map some := by
  have hnamed := named_of_mem_nameGroups hg
  have hwell : ∀ q ∈ g.routes, q.WellFormed := fun q hq =>
    hs.routes q ((mem_routes_iff hg).1 hq).1
  obtain ⟨r, hr⟩ := exists_mem_routes hg
  obtain ⟨f, hfile, hkind, hlines⟩ :=
    groupFile?_of_names (s := s) e hnamed hr fun q hq => (hwell q hq).isName_method
  have hregister : f.functionName? = some g.register := by
    have hparen := hnamed.paren_notMem _ mem_cons_self
    rw [String.append_assoc] at hlines
    exact functionName?_of_lines "r gin.IRouter)" hkind hparen hlines
  have hhandlers : ∀ n ∈ mountedRoutes g,
      ∃ d, handlerFunction? e n = some d ∧ d.functionName? = some n.handler := by
    intro n hn
    have hmem := (mountedRoutes_sublist g).subset hn
    exact exists_handlerFunction e (hwell n.route (hnamed.route_mem hmem))
      (hnamed.paren_notMem _ (mem_cons_of_mem _ (handler_mem hg hmem)))
  obtain ⟨hnames, hfunctions⟩ := map_filterMap_eq_map hhandlers
  refine ⟨_, f, _, hfile, rfl, hlines, hfunctions, ?_⟩
  rw [map_cons, hregister, hnames, registrations_eq_map, map_cons, map_map, map_map]
  rfl

/-- **The routes package is exact** for every well-formed service with a database. -/
theorem routesPackage_of_wellFormed {s : Service} (hs : s.WellFormed) (hdb : s.hasDatabase) (e : Engine) :
    RoutesPackage { service := s, settings, engine := some e } e where
  registered := fun r hr => registered_once hs hr
  declared := fun m hm => registered_declared hm
  files := by
    intro g hg
    obtain ⟨file, f, rest, hfile, hdecls, hlines, hrest, hnames⟩ := groupFile_exact e hs hg
    refine ⟨file, f, rest, ?_, hdecls, hlines, hrest, hnames, nodup_register_handlers hg s, ?_⟩
    · refine mem_append_right _ (mem_map.2 ⟨g, hg, ?_⟩)
      rw [target_of_hasDatabase settings hdb, hfile]
    · intro n hn hfirst
      refine handler_notMem_registrations hg s hn fun hmounted => hfirst ?_
      rw [← find?_endpoint_eq_find?_address hs hg ((named_of_mem_nameGroups hg).route_mem hn)]
      exact mem_mountedRoutes_iff.1 hmounted
  mounts := by
    refine ⟨indexFile s true (nameGroups (Route.groups s.routes)), _,
      mountBody s true (nameGroups (Route.groups s.routes)), ?_, rfl, rfl,
      filter_mountBody s true s.routes, nodup_registers s.routes,
      firstAppearances_namedSegments s.routes⟩
    rw [tasks, target_of_hasDatabase settings hdb]
    exact mem_append_left _ (by simp [Generator.groups])

/-- **Nothing is lost and nothing is doubled.** Every source that is built and names a database is
    generated from by a generator with an engine, and the routes package that this makes is exact. -/
theorem routesPackage_ofSource (settings : Settings) {source : String} {b : Build}
    (hb : Build.ofSource source = .ok b) (hdb : b.service.hasDatabase) :
    ∃ gen e, Generator.ofService settings b.service = .ok gen ∧ gen.service = b.service ∧
      gen.target = some e ∧ RoutesPackage gen e := by
  have hs := wellFormed_of_ofSource hb
  obtain ⟨e, he⟩ := exists_generator settings hs hdb
  exact ⟨_, e, he, rfl, target_of_hasDatabase settings hdb e,
    routesPackage_of_wellFormed settings hs hdb e⟩

/-- A source with two routes of one address and a group in between. -/
def repeatedAddress : String :=
  "whisper: db type mysql\nwhen asked for /items, retrieve item by id from 'items'\n" ++
  "when asked for /, offer all items from 'shops'\n" ++
  "when asked for //items/:id, retrieve item by id from 'items'"

def repeatedAddressService : Service where
  database := { dialect := "mysql" }
  routes :=
    [ { method := "GET", path := "/items", action := .getById, collection := "items" },
      { method := "GET", path := "/", action := .listAll, collection := "shops" },
      { method := "GET", path := "//items/:id", action := .getById, collection := "items" } ]

theorem ofSource_repeatedAddress : Build.ofSource repeatedAddress = .ok { service := repeatedAddressService } := by
  decide +kernel

theorem routesPackage_repeatedAddress :
    ∃ gen e, Generator.ofService {} repeatedAddressService = .ok gen ∧
      gen.service = repeatedAddressService ∧ gen.target = some e ∧ RoutesPackage gen e :=
  routesPackage_ofSource {} ofSource_repeatedAddress (by decide)

end ServiceCompiler
