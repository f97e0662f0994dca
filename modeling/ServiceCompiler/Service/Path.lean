import ServiceCompiler.Service.Basic
import ServiceCompiler.Text.Basic

namespace ServiceCompiler

open List

/-!
# Paths and route groups

A path is cut at its slashes into segments, of which the empty ones count for nothing.  Routes with
the same first segment form a group, which is mounted at that segment.

* `Path.firstSegment`, `Path.relative`, `Path.params` are the views of a path.
* `Route.groups` lists the groups in the order in which their first segments appear; the routes of
  a group keep their order.  It passes over the routes once, with a `Grouping` that knows where the
  group of each segment stands.
-/

namespace Path

/-- The pieces between the slashes of a path. -/
def segments (path : List Char) : List (List Char) := Text.splitOn '/' path

/-- The first non-empty segment, or nothing at all. -/
def firstSegment (path : String) : String :=
  match (segments path.toList).find? (!·.isEmpty) with
  | some segment => String.ofList segment
  | none => ""

/-- The path below the first non-empty segment, with a slash in front; empty when nothing
    follows. -/
def relative (path : String) : String :=
  match (segments path.toList).dropWhile isEmpty with
  | [] => ""
  | [_] => ""
  | _ :: rest => String.ofList ('/' :: ['/'].intercalate rest)

/-- The names of the parameter segments, in order. -/
def params (path : String) : List String :=
  (segments path.toList).filterMap fun segment =>
    match segment with
    | ':' :: c :: name => some (String.ofList (c :: name))
    | _ => none

end Path

/-- The routes that share a first segment. -/
structure RouteGroup where
  segment : String
  routes : List Route
  deriving DecidableEq, Repr

/-- The path a group is mounted at. -/
def RouteGroup.mountPath (g : RouteGroup) : String := "/" ++ g.segment

/-- The group with one more route at its end. -/
def RouteGroup.add (g : RouteGroup) (r : Route) : RouteGroup := { g with routes := g.routes ++ [r] }

@[simp] theorem RouteGroup.segment_add (g : RouteGroup) (r : Route) : (g.add r).segment = g.segment :=
  rfl

@[simp] theorem RouteGroup.routes_add (g : RouteGroup) (r : Route) :
    (g.add r).routes = g.routes ++ [r] := rfl

def Route.segment (r : Route) : String := Path.firstSegment r.path

/-! ### Grouping -/

/-- The index gives every key its place in the list, and has no others. -/
def IsIndex (index : List (String × Nat)) (keys : List String) : Prop :=
  ∀ key i, index.lookup key = some i ↔ keys[i]? = some key

/-- A new key gets the place behind the last one. -/
theorem IsIndex.concat {index : List (String × Nat)} {keys : List String} (h : IsIndex index keys)
    {new : String} (hnew : index.lookup new = none) :
    IsIndex ((new, keys.length) :: index) (keys ++ [new]) := by
  intro key i
  rw [lookup_cons]
  by_cases hkey : key = new
  · subst hkey
    have hfree : keys[i]? ≠ some key := fun hi => by simp [(h key i).2 hi] at hnew
    rcases Nat.lt_trichotomy i keys.length with hi | rfl | hi
    · simpa [getElem?_append_left hi, Nat.ne_of_gt hi] using hfree
    · simp
    · have hbehind : (keys ++ [key])[i]? = none :=
        getElem?_eq_none (by simpa using Nat.succ_le_of_lt hi)
      simp [hbehind, Nat.ne_of_lt hi]
  · have hlast : ([new] : List String)[i - keys.length]? ≠ some key := by
      cases i - keys.length <;> simp [Ne.symm hkey]
    simp only [beq_false_of_ne hkey]
    rw [h key i]
    rcases Nat.lt_or_ge i keys.length with hi | hi
    · rw [getElem?_append_left hi]
    · rw [getElem?_append_right hi, getElem?_eq_none hi]
      simpa using hlast

/-- Groups under construction, with an index that finds the group of a segment. -/
structure Grouping where
  groups : List RouteGroup := []
  index : List (String × Nat) := []
  indexed : IsIndex index (groups.map RouteGroup.segment) := by simp [IsIndex]

namespace Grouping

/-- A group without routes is opened for a segment that has none yet. -/
def opened (g : Grouping) (segment : String) (h : g.index.lookup segment = none) : Grouping where
  groups := g.groups ++ [{ segment, routes := [] }]
  index := (segment, g.groups.length) :: g.index
  indexed := by simpa using g.indexed.concat h

/-- One more route in the group at place `i`. -/
def extended (g : Grouping) (i : Nat) (r : Route) : Grouping where
  groups := g.groups.modify i (·.add r)
  index := g.index
  indexed := by
    have hsegments : (g.groups.modify i (·.add r)).map RouteGroup.segment =
        g.groups.map RouteGroup.segment := by
      apply ext_getElem?
      intro j
      rw [getElem?_map, getElem?_map, getElem?_modify]
      cases g.groups[j]? with
      | none => rfl
      | some group => by_cases h : i = j <;> simp [h]
    rw [hsegments]
    exact g.indexed

/-- One more route, at the end of the group of its segment. -/
def add (g : Grouping) (r : Route) : Grouping :=
  match h : g.index.lookup r.segment with
  | some i => g.extended i r
  | none => (g.opened r.segment h).extended g.groups.length r

end Grouping

/-- The groups of a list of routes, made in one pass over it. -/
def Route.groups (routes : List Route) : List RouteGroup := (routes.foldl Grouping.add {}).groups

end ServiceCompiler
