import ServiceCompiler.Code.Routes
import ServiceCompiler.Proofs.Routes.Grouping
import ServiceCompiler.Proofs.Text.Pieces

namespace ServiceCompiler

open Code List

/-!
# Declared paths

The mount path of a group and the path of a registration below it make up the path that the route declares, and the
parameter that the identity of an item is read from is the last one of the whole.

* `Path.firstSegment_append_relative` — a path is its first segment and what follows, the slashes in front apart.
* `Path.params_bare`, `Path.params_append` — its parameters are those of its parts.
* `declaredPath_recomposed` — what follows for the routes of every group.
-/

namespace Path

/-- The path without the slashes in front. -/
def bare (path : String) : String := String.ofList (path.toList.dropWhile (· == '/'))

/-- The segments from the first that is not empty on are what follows the slashes in front. -/
theorem intercalate_dropWhile_segments (cs : List Char) :
    ['/'].intercalate ((segments cs).dropWhile isEmpty) = cs.dropWhile (· == '/') := by
  induction cs with
  | nil => rfl
  | cons c cs ih =>
    by_cases hc : c = '/'
    · subst hc
      exact ih
    · -- The first segment begins with `c`, so none is dropped.
      have hfirst : (segments (c :: cs)).dropWhile isEmpty = (c :: cs).splitOn '/' := by
        rw [segments, Text.splitOn_eq_list_splitOn, splitOn_cons_eq_if_modifyHead, if_neg (by simpa using hc)]
        cases h : cs.splitOn '/' with
        | nil => exact absurd h (splitOn_ne_nil _ _)
        | cons piece pieces => rfl
      rw [hfirst, intercalate_splitOn, dropWhile_cons_of_neg (by simpa using hc)]

theorem firstSegment_append_relative (path : String) : firstSegment path ++ relative path = bare path := by
  rw [bare, ← intercalate_dropWhile_segments, firstSegment, relative, find?_eq_head?_dropWhile_not]
  simp only [Bool.not_not]
  rcases (segments path.toList).dropWhile isEmpty with _ | ⟨first, _ | ⟨second, rest⟩⟩
  · rfl
  · simp
  · exact String.toList_inj.1 (by simp [intercalate_cons_cons])

/-- How many slashes stand in front makes no difference to the parameters. -/
theorem params_bare (path : String) : params ("/" ++ bare path) = params path := by
  have htext : ("/" ++ bare path).toList = '/' :: path.toList.dropWhile (· == '/') := by simp [bare]
  rw [params, params, htext]
  induction path.toList with
  | nil => rfl
  | cons c cs ih =>
    by_cases hc : c = '/'
    · subst hc
      exact ih
    · rw [dropWhile_cons_of_neg (by simpa using hc)]
      rfl

theorem params_append (path below : String) : params (path ++ ("/" ++ below)) = params path ++ params below := by
  have htext : (path ++ ("/" ++ below)).toList = path.toList ++ '/' :: below.toList := by simp
  rw [params, htext, segments, Text.splitOn_append_cons, filterMap_append]
  rfl

end Path

/-- **The declared path is put together again.**  A path is its first segment followed by the path below it, without
    the slashes in front.  Hence the mount path of a route's group followed by the path of its registration is the path
    that the route declares behind one slash, unless a parameter is added; and the identity of an item is read from the
    last parameter of that path, added or not. -/
theorem declaredPath_recomposed :
    (∀ path, Path.firstSegment path ++ Path.relative path = Path.bare path) ∧
    ∀ routes, ∀ r ∈ routes, (∃ g ∈ Route.groups routes, r ∈ g.routes) ∧
      ∀ g ∈ Route.groups routes, r ∈ g.routes →
        (¬ (r.action = .getById ∧ Path.params r.path = []) →
          g.mountPath ++ registeredPath r = "/" ++ Path.bare r.path) ∧
        (r.action = .getById → (Path.params (g.mountPath ++ registeredPath r)).getLast? = some (idParameter r)) := by
  refine ⟨Path.firstSegment_append_relative, fun routes r hr => ⟨?_, fun g hg hmem => ?_⟩⟩
  · refine ⟨⟨r.segment, routes.filter (·.segment == r.segment)⟩, mem_groups_iff.2 ⟨List.mem_map_of_mem hr, rfl⟩, ?_⟩
    simpa using hr
  have hsegment : g.segment = r.segment := by
    rw [(mem_groups_iff.1 hg).2] at hmem
    exact (beq_iff_eq.1 (List.mem_filter.1 hmem).2).symm
  have hdeclared : g.mountPath ++ Path.relative r.path = "/" ++ Path.bare r.path := by
    rw [RouteGroup.mountPath, hsegment, String.append_assoc, Route.segment, Path.firstSegment_append_relative]
  rw [registeredPath]
  refine ⟨fun hkept => by rw [if_neg hkept, hdeclared], fun hget => ?_⟩
  by_cases hparams : Path.params r.path = []
  · rw [if_pos ⟨hget, hparams⟩, ← String.append_assoc, hdeclared, show "/:id" = "/" ++ ":id" from rfl,
      Path.params_append, Path.params_bare, idParameter, hparams]
    rfl
  · rw [if_neg fun h => hparams h.2, hdeclared, Path.params_bare, idParameter]
    obtain ⟨front, last, hlast⟩ := (List.eq_nil_or_concat' _).resolve_left hparams
    rw [hlast, List.getLast?_concat, Option.getD_some]

/-- A route below a parameter, with empty segments and a colon without a name. -/
def slashedRoute : Route := ⟨"GET", "//:a//:", .getById, "items", []⟩

theorem declaredPath_recomposed_slashes :
    ⟨":a", [slashedRoute]⟩ ∈ Route.groups [slashedRoute] ∧ "/:a" ++ registeredPath slashedRoute = "/:a//:" ∧
      (Path.params ("/:a" ++ registeredPath slashedRoute)).getLast? = some "a" := by
  have hg : ⟨":a", [slashedRoute]⟩ ∈ Route.groups [slashedRoute] := by decide
  have h := (declaredPath_recomposed.2 _ slashedRoute (List.mem_singleton_self _)).2 _ hg (List.mem_singleton_self _)
  exact ⟨hg, h.1 (by decide), h.2 rfl⟩

end ServiceCompiler
