import Mathlib.Data.List.Nodup
import ServiceCompiler.Code.Routes
import ServiceCompiler.Proofs.Naming.Fresh

namespace ServiceCompiler

open Code List

/-!
# Which routes a group registers

A group registers the first route of each endpoint and leaves out the later ones.

* `find?_mountedRoutes` — the route mounted for an endpoint is the first one declared with it.
* `nodup_mountedRoutes` — no endpoint is mounted twice.
* `ChecksToken` — a request for a route is asked for a token.  Whether it is depends on the first route
  of its endpoint alone, whose path may be written differently.
-/

/-! ### The first route of each endpoint -/

variable (seen : List String)

/-- What tells the routes of a group apart: the method and the path below the mount point. -/
def Route.endpoint (r : Route) : String := r.method ++ " " ++ registeredPath r

def NamedGroup.namedRoutes (g : NamedGroup) : List NamedRoute :=
  zipWith NamedRoute.mk g.routes g.handlers

theorem NamedGroup.namedRoutes_eq_map (g : NamedGroup) :
    g.namedRoutes = (g.routes.zip g.handlers).map fun p => ⟨p.1, p.2⟩ := by
  rw [map_zip_eq_zipWith]
  rfl

theorem NamedGroup.Named.map_route {g : NamedGroup} (h : g.Named) :
    g.namedRoutes.map NamedRoute.route = g.routes := by
  rw [namedRoutes_eq_map, map_map]
  exact map_fst_zip (Nat.le_of_eq h.length_handlers.symm)

theorem NamedGroup.Named.map_handler {g : NamedGroup} (h : g.Named) :
    g.namedRoutes.map NamedRoute.handler = g.handlers := by
  rw [namedRoutes_eq_map, map_map]
  exact map_snd_zip (Nat.le_of_eq h.length_handlers)

theorem NamedGroup.Named.route_mem {g : NamedGroup} (h : g.Named) {n : NamedRoute}
    (hn : n ∈ g.namedRoutes) : n.route ∈ g.routes := by
  rw [← h.map_route]
  exact mem_map_of_mem hn

/-- Among the routes kept, the one of an endpoint not seen is the first one with it. -/
theorem find?_firstEndpoints (rs : List NamedRoute) (k : String) :
    (firstEndpoints seen rs).find? (·.endpoint == k) =
      if k ∈ seen then none else rs.find? (·.endpoint == k) := by
  -- The list of endpoints seen grows along the routes, so it is general in the induction.
  induction rs generalizing seen with
  | nil => simp [firstEndpoints]
  | cons r rest ih =>
    rw [firstEndpoints]
    by_cases hseen : r.endpoint ∈ seen
    · rw [if_pos (by simpa using hseen), ih]
      by_cases hk : r.endpoint = k
      · rw [if_pos (hk ▸ hseen), if_pos (hk ▸ hseen)]
      · rw [find?_cons_of_neg (by simpa using hk)]
    · rw [if_neg (by simpa using hseen)]
      by_cases hk : r.endpoint = k
      · rw [find?_cons_of_pos (by simpa using hk), find?_cons_of_pos (by simpa using hk), if_neg (hk ▸ hseen)]
      · rw [find?_cons_of_neg (by simpa using hk), find?_cons_of_neg (by simpa using hk), ih]
        simp [Ne.symm hk]

/-- The routes kept are distinct in their endpoints, of which none was seen. -/
theorem firstEndpoints_distinct (rs : List NamedRoute) :
    ((firstEndpoints seen rs).map NamedRoute.endpoint).Nodup ∧
      ∀ n ∈ firstEndpoints seen rs, n.endpoint ∉ seen := by
  induction rs generalizing seen with
  | nil => simp [firstEndpoints]
  | cons r rest ih =>
    rw [firstEndpoints]
    split
    · exact ih seen
    · rename_i hseen
      obtain ⟨hnodup, hfree⟩ := ih (r.endpoint :: seen)
      refine ⟨?_, ?_⟩
      · rw [map_cons, nodup_cons]
        refine ⟨?_, hnodup⟩
        intro hmem
        obtain ⟨n, hn, heq⟩ := mem_map.1 hmem
        exact hfree n hn (heq ▸ mem_cons_self)
      · intro n hn
        rcases mem_cons.1 hn with rfl | hn
        · simpa using hseen
        · exact fun h => hfree n hn (mem_cons_of_mem _ h)

theorem firstEndpoints_sublist (rs : List NamedRoute) : (firstEndpoints seen rs).Sublist rs := by
  induction rs generalizing seen with
  | nil => exact Sublist.slnil
  | cons r rest ih =>
    rw [firstEndpoints]
    split
    · exact (ih seen).cons r
    · exact (ih _).cons_cons r

/-! ### Mounted routes -/

variable {s : Service} {g : NamedGroup} {r : Route} {n : NamedRoute}

/-- No endpoint is mounted twice. -/
theorem nodup_mountedRoutes (g : NamedGroup) : ((mountedRoutes g).map NamedRoute.endpoint).Nodup :=
  (firstEndpoints_distinct [] g.namedRoutes).1

theorem mountedRoutes_sublist (g : NamedGroup) : (mountedRoutes g).Sublist g.namedRoutes :=
  firstEndpoints_sublist [] g.namedRoutes

/-- **The first one wins.** The route mounted for an endpoint is the first one declared with it. -/
theorem find?_mountedRoutes (g : NamedGroup) (k : String) :
    (mountedRoutes g).find? (·.endpoint == k) = g.namedRoutes.find? (·.endpoint == k) := by
  rw [mountedRoutes, find?_firstEndpoints, if_neg not_mem_nil]
  rfl

/-- A route is mounted exactly when it is the first one of its endpoint. -/
theorem mem_mountedRoutes_iff : n ∈ mountedRoutes g ↔ g.namedRoutes.find? (·.endpoint == n.endpoint) = some n := by
  rw [← find?_mountedRoutes]
  constructor
  · intro hn
    have hsome : ((mountedRoutes g).find? (·.endpoint == n.endpoint)).isSome :=
      find?_isSome.2 ⟨n, hn, by simp⟩
    obtain ⟨m, hm⟩ := Option.isSome_iff_exists.1 hsome
    have hend : m.endpoint = n.endpoint := by simpa using find?_some hm
    rw [hm, inj_on_of_nodup_map (nodup_mountedRoutes g) (mem_of_find?_eq_some hm) hn hend]
  · exact mem_of_find?_eq_some

/-- The first route of a group that is compared equal to `r`. -/
def NamedGroup.firstLike (g : NamedGroup) (r : Route) : Option Route :=
  g.routes.find? (·.endpoint == r.endpoint)

/-- The route mounted for the endpoint of a declared route is the first one like it. -/
theorem exists_mounted (hg : g.Named) (hr : r ∈ g.routes) :
    ∃ n ∈ mountedRoutes g, n.endpoint = r.endpoint ∧ g.firstLike r = some n.route := by
  have hfind : (g.namedRoutes.find? (·.endpoint == r.endpoint)).map NamedRoute.route =
      g.firstLike r := by
    rw [NamedGroup.firstLike, ← hg.map_route, find?_map]
    rfl
  have hsome : (g.firstLike r).isSome := find?_isSome.2 ⟨r, hr, by simp⟩
  obtain ⟨q, hq⟩ := Option.isSome_iff_exists.1 hsome
  rw [hq] at hfind
  obtain ⟨n, hn, rfl⟩ := Option.map_eq_some_iff.1 hfind
  have hend : n.endpoint = r.endpoint := by simpa using find?_some hn
  exact ⟨n, mem_mountedRoutes_iff.2 (hend ▸ hn), hend, hq⟩

/-- Two mounted routes with one endpoint are the same. -/
theorem mounted_unique {m : NamedRoute} (hn : n ∈ mountedRoutes g) (hm : m ∈ mountedRoutes g)
    (h : n.endpoint = m.endpoint) : n = m :=
  inj_on_of_nodup_map (nodup_mountedRoutes g) hn hm h

/-! ### Registrations -/

def Code.NamedRoute.registration (s : Service) (n : NamedRoute) : Registration where
  method := n.route.method
  path := registeredPath n.route
  guarded := s.isGuarded n.route.path
  handler := n.handler

theorem registrations_eq_map (s : Service) (g : NamedGroup) :
    registrations s g = (mountedRoutes g).map (NamedRoute.registration s) := rfl

/-- Whether a registration answers the requests that a route declares. -/
def Code.Registration.Answers (reg : Registration) (r : Route) : Prop :=
  reg.method = r.method ∧ reg.path = registeredPath r

/-- What is registered under the method and path of a route asks for a token before the handler. -/
def ChecksToken (s : Service) (g : NamedGroup) (r : Route) : Prop :=
  (∃ reg ∈ registrations s g, reg.Answers r) ∧
    ∀ reg ∈ registrations s g, reg.Answers r →
      reg.arguments = [lit (registeredPath r), "auth.Authenticate", reg.handler]

theorem Code.Registration.arguments_eq_checked_iff {reg : Registration} :
    reg.arguments = [lit reg.path, "auth.Authenticate", reg.handler] ↔ reg.guarded = true := by
  cases h : reg.guarded <;> simp [Registration.arguments, h]

/-- Routes with the same method and path below the mount point are compared equal. -/
theorem Route.endpoint_congr {q : Route} (hm : q.method = r.method)
    (hp : registeredPath q = registeredPath r) : q.endpoint = r.endpoint := by
  rw [Route.endpoint, Route.endpoint, hm, hp]

/-- What answers the requests of a declared route is the registration of the route mounted for it. -/
theorem eq_registration_of_answers {reg : Registration} (hn : n ∈ mountedRoutes g)
    (hend : n.endpoint = r.endpoint) (hreg : reg ∈ registrations s g) (hans : reg.Answers r) :
    reg = n.registration s := by
  obtain ⟨m, hm, rfl⟩ := mem_map.1 (registrations_eq_map s g ▸ hreg)
  have hmr : m.endpoint = r.endpoint := Route.endpoint_congr hans.1 hans.2
  rw [mounted_unique hm hn (hmr.trans hend.symm)]

/-- The function of a group that has something to register, all of it under methods that are names, has
    one line per registration. -/
theorem registerLines?_of_names {head : String} {entries : List Registration} (hne : entries ≠ [])
    (hnames : ∀ reg ∈ entries, Fragment.isName reg.method.toList) :
    registerLines? head entries = some (block head (entries.map (·.line))) := by
  rw [registerLines?, if_neg (by simpa using hne), if_pos (all_eq_true.2 hnames)]

theorem registrations_ne_nil (hg : g.Named) (hr : r ∈ g.routes) : registrations s g ≠ [] := by
  obtain ⟨n, hn, -, -⟩ := exists_mounted hg hr
  rw [registrations_eq_map]
  exact ne_nil_of_mem (mem_map_of_mem hn)

/-- The file of a group whose methods are names: the function that registers the group has the lines of
    the registrations, and the handlers follow it. -/
theorem groupFile?_of_names (e : Engine) (hg : g.Named) (hr : r ∈ g.routes)
    (hnames : ∀ q ∈ g.routes, Fragment.isName q.method.toList) :
    ∃ f : Declaration,
      groupFile? s (some e) g =
        some { package := "routes"
               declarations := f :: (mountedRoutes g).filterMap (handlerFunction? e) } ∧
      f.kind = .function ∧
      f.lines = block ("func " ++ g.register ++ "(r gin.IRouter)")
        ((registrations s g).map (·.line)) := by
  have hentries : ∀ reg ∈ registrations s g, Fragment.isName reg.method.toList := by
    intro reg hreg
    obtain ⟨m, hm, rfl⟩ := mem_map.1 (registrations_eq_map s g ▸ hreg)
    exact hnames m.route (hg.route_mem ((mountedRoutes_sublist g).subset hm))
  rw [groupFile?, registerFunction?, registerLines?_of_names (registrations_ne_nil hg hr) hentries]
  exact ⟨_, rfl, rfl, rfl⟩

/-- **The first route of an endpoint decides on the token.** A request for a declared route is asked for
    a token exactly when the first route of the group that is compared equal to it has its method and
    path, and is itself listed as guarded, by its path as written.  In the group's file this is the
    list of registrations, line by line, where the methods are names. -/
theorem checksToken_iff_firstLike_guarded (s : Service) (e : Engine) {g : NamedGroup}
    (hg : g ∈ nameGroups (Route.groups s.routes)) {r : Route} (hr : r ∈ g.routes) :
    (ChecksToken s g r ↔
      ∃ q, g.firstLike r = some q ∧ q.method = r.method ∧ registeredPath q = registeredPath r ∧
        s.isGuarded q.path) ∧
    ((∀ q ∈ g.routes, Fragment.isName q.method.toList) →
      ∃ f rest,
        groupFile? s (some e) g = some { package := "routes", declarations := f :: rest } ∧
        f.lines = block ("func " ++ g.register ++ "(r gin.IRouter)")
          ((registrations s g).map (·.line))) := by
  have hnamed := named_of_mem_nameGroups hg
  obtain ⟨n, hn, hend, hfirst⟩ := exists_mounted hnamed hr
  have hreg : n.registration s ∈ registrations s g :=
    registrations_eq_map s g ▸ List.mem_map_of_mem hn
  refine ⟨⟨?_, ?_⟩, ?_⟩
  · -- The registration that answers is that of the first route, and its own path decided.
    rintro ⟨⟨reg, hmem, hans⟩, hall⟩
    have hchecked := hall reg hmem hans
    rw [← hans.2, Registration.arguments_eq_checked_iff] at hchecked
    obtain rfl := eq_registration_of_answers hn hend hmem hans
    exact ⟨n.route, hfirst, hans.1, hans.2, hchecked⟩
  · rintro ⟨q, hq, hmethod, hpath, hguarded⟩
    obtain rfl : n.route = q := Option.some.inj (hfirst.symm.trans hq)
    refine ⟨⟨n.registration s, hreg, hmethod, hpath⟩, ?_⟩
    intro reg hmem hans
    obtain rfl := eq_registration_of_answers hn hend hmem hans
    rw [← hans.2, Registration.arguments_eq_checked_iff]
    exact hguarded
  · intro hnames
    obtain ⟨f, hfile, -, hlines⟩ := groupFile?_of_names (s := s) e hnamed hr hnames
    exact ⟨f, _, hfile, hlines⟩

/-! ### A guard that is lost -/

/-- A service that declares one endpoint twice, the second time under a path that is guarded. -/
def twiceDeclared : Service where
  database := { dialect := "mysql" }
  auth := { enabled := true, strategy := Auth.jwt, guarded := ["/items/:id"] }
  routes :=
    [ { method := "GET", path := "/items", action := .getById, collection := "items" },
      { method := "GET", path := "/items/:id", action := .getById, collection := "items" } ]

/-- Its only group. -/
def twiceDeclaredGroup : NamedGroup where
  segment := "items"
  routes := twiceDeclared.routes
  register := "RegisterItems"
  file := "items.go"
  handlers := ["getItem", "getItem2"]

theorem groups_twiceDeclared : nameGroups (Route.groups twiceDeclared.routes) = [twiceDeclaredGroup] := by
  decide +kernel

def guardedRoute : Route :=
  { method := "GET", path := "/items/:id", action := .getById, collection := "items" }

/-- The condition at this service: the first route like the guarded one is the other one. -/
theorem checksToken_twiceDeclared :
    (ChecksToken twiceDeclared twiceDeclaredGroup guardedRoute ↔
      ∃ q, twiceDeclaredGroup.firstLike guardedRoute = some q ∧ q.method = guardedRoute.method ∧
        registeredPath q = registeredPath guardedRoute ∧ twiceDeclared.isGuarded q.path) ∧
    ∃ f rest,
      groupFile? twiceDeclared (some .mysql) twiceDeclaredGroup =
        some { package := "routes", declarations := f :: rest } ∧
      f.lines = block "func RegisterItems(r gin.IRouter)" ["r.GET(\"/:id\", getItem)"] := by
  have h := checksToken_iff_firstLike_guarded twiceDeclared .mysql
    (g := twiceDeclaredGroup) (groups_twiceDeclared ▸ List.mem_singleton_self _)
    (r := guardedRoute) (by decide)
  exact ⟨h.1, h.2 (by decide +kernel)⟩

/-- **A guard is lost.** The service asks for tokens and guards the route, but what is registered for it
    is the route declared first, which is not guarded. -/
theorem not_checksToken_twiceDeclared :
    twiceDeclared.tokenAuth ∧ twiceDeclared.hasDatabase ∧
      twiceDeclaredGroup ∈ nameGroups (Route.groups twiceDeclared.routes) ∧
      guardedRoute ∈ twiceDeclaredGroup.routes ∧ twiceDeclared.isGuarded guardedRoute.path ∧
      ¬ ChecksToken twiceDeclared twiceDeclaredGroup guardedRoute := by
  refine ⟨by decide, by decide, ?_, by decide, by decide, ?_⟩
  · rw [groups_twiceDeclared]
    exact List.mem_singleton_self _
  · rintro ⟨-, hall⟩
    have hreg : (⟨"GET", "/:id", false, "getItem"⟩ : Registration) ∈
        registrations twiceDeclared twiceDeclaredGroup := by decide +kernel
    have hargs := hall _ hreg (by constructor <;> decide +kernel)
    exact absurd (congrArg List.length hargs) (by decide)

end ServiceCompiler
