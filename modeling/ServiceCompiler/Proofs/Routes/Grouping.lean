import ServiceCompiler.Proofs.FirstAppearance
import ServiceCompiler.Proofs.Naming.Fresh

namespace ServiceCompiler

open List Route

/-!
# Route groups

The groups of a list of routes are its parts by first segment.

* `Grouping.add_cases` — what one route does to the groups: it goes to the end of the group of its segment,
  or it opens a group.
* `IsPartition` — the order-preserving partition of routes by first segment.  One more route keeps it (the
  step, `IsPartition.add`), hence the pass over all routes gives it (the run, `isPartition_groups`); and there
  is only one such list of groups (`isPartition_iff_eq_groups`).
* `mem_groups_iff` — a group holds exactly the routes with its segment, in their order.
* `firstAppearances_segments` — there is one group for each segment, in the order in which the segments
  appear.

Naming keeps both (`NamedGroup.routes_eq`, `firstAppearances_namedSegments`).
-/

variable {routes : List Route} {g : NamedGroup}

/-! ### One more route -/

/-- **What one route does**: it goes to the end of the group of its segment, or it opens a group behind the
    others when there is none. -/
theorem Grouping.add_cases (g : Grouping) (r : Route) :
    (∃ front group back, g.groups = front ++ group :: back ∧ group.segment = r.segment ∧
      (g.add r).groups = front ++ group.add r :: back) ∨
    (r.segment ∉ g.groups.map RouteGroup.segment ∧
      (g.add r).groups = g.groups ++ [{ segment := r.segment, routes := [r] }]) := by
  rw [Grouping.add]
  split
  · rename_i i hlookup
    have hkey := (g.indexed _ _).1 hlookup
    rw [getElem?_map] at hkey
    obtain ⟨group, hgroup, hsegment⟩ := Option.map_eq_some_iff.1 hkey
    obtain ⟨hi, rfl⟩ := List.getElem?_eq_some_iff.1 hgroup
    refine .inl ⟨g.groups.take i, g.groups[i], g.groups.drop (i + 1), ?_, hsegment, ?_⟩
    · rw [← drop_eq_getElem_cons hi, take_append_drop]
    · exact modify_eq_take_cons_drop hi
  · rename_i hlookup
    refine .inr ⟨?_, ?_⟩
    · intro hmem
      obtain ⟨i, hi⟩ := getElem?_of_mem hmem
      rw [(g.indexed _ i).2 hi] at hlookup
      cases hlookup
    · show (g.groups ++ [RouteGroup.mk r.segment []]).modify g.groups.length (·.add r) = _
      rw [modify_eq_take_cons_drop (by simp)]
      simp [RouteGroup.add]

/-! ### The partition -/

/-- The groups are the parts of the routes by first segment, with the order of the routes kept. -/
structure IsPartition (routes : List Route) (groups : List RouteGroup) : Prop where
  /-- There is one group for each segment, in the order in which the segments appear first. -/
  segments : FirstAppearances (routes.map segment) (groups.map RouteGroup.segment)
  /-- A group holds exactly the routes with its segment, in their order. -/
  routes_eq : ∀ group ∈ groups, group.routes = routes.filter (·.segment == group.segment)
  routes_ne_nil : ∀ group ∈ groups, group.routes ≠ []
  /-- No route is lost or doubled. -/
  perm : (groups.flatMap RouteGroup.routes).Perm routes

/-- One more route is one more in the part of its segment, -/
theorem filter_segment_concat (routes : List Route) (r : Route) :
    (routes ++ [r]).filter (·.segment == r.segment) = routes.filter (·.segment == r.segment) ++ [r] := by
  simp

/-- and leaves the other parts alone. -/
theorem filter_segment_concat_of_ne (routes : List Route) {r : Route} {segment : String} (h : r.segment ≠ segment) :
    (routes ++ [r]).filter (·.segment == segment) = routes.filter (·.segment == segment) := by
  simp [h]

namespace IsPartition

variable {r : Route}

theorem extended {front back : List RouteGroup} {group : RouteGroup} (h : IsPartition routes (front ++ group :: back))
    (hsegment : group.segment = r.segment) : IsPartition (routes ++ [r]) (front ++ group.add r :: back) := by
  have hseen : r.segment ∈ routes.map segment := by
    rw [← h.segments.mem_iff, ← hsegment]
    exact mem_map_of_mem (by simp)
  -- The other groups are of other segments, and as they were.
  have hothers : ∀ other, other ∈ front ∨ other ∈ back →
      r.segment ≠ other.segment ∧ other ∈ front ++ group :: back := by
    have hnodup := h.segments.nodup
    rw [map_append, map_cons, nodup_middle, nodup_cons, ← map_append, hsegment] at hnodup
    intro other hother
    refine ⟨fun heq => hnodup.1 (heq ▸ mem_map_of_mem (mem_append.2 hother)), ?_⟩
    exact mem_append.2 (hother.imp_right (mem_cons_of_mem group))
  have hcases : ∀ other ∈ front ++ group.add r :: back, other = group.add r ∨ other ∈ front ∨ other ∈ back := by
    intro other hother
    simpa [or_left_comm] using hother
  refine ⟨?_, ?_, ?_, ?_⟩
  · simpa using h.segments.concat_of_mem hseen
  · intro other hother
    rcases hcases other hother with rfl | hother
    · rw [RouteGroup.segment_add, RouteGroup.routes_add, h.routes_eq group (by simp), hsegment, filter_segment_concat]
    · rw [filter_segment_concat_of_ne routes (hothers other hother).1]
      exact h.routes_eq other (hothers other hother).2
  · intro other hother
    rcases hcases other hother with rfl | hother
    · simp
    · exact h.routes_ne_nil other (hothers other hother).2
  · have hperm := h.perm.append_right [r]
    simp only [flatMap_append, flatMap_cons, append_assoc, RouteGroup.routes_add] at hperm ⊢
    exact .trans (.append_left _ (.append_left _ perm_append_comm)) hperm

theorem opened {groups : List RouteGroup} (h : IsPartition routes groups)
    (hnew : r.segment ∉ groups.map RouteGroup.segment) :
    IsPartition (routes ++ [r]) (groups ++ [{ segment := r.segment, routes := [r] }]) := by
  have hunseen : r.segment ∉ routes.map segment := by rwa [← h.segments.mem_iff]
  refine ⟨?_, ?_, ?_, ?_⟩
  · simpa using h.segments.concat_of_notMem hunseen
  · intro other hother
    rcases mem_append.1 hother with hother | hother
    · rw [filter_segment_concat_of_ne routes fun heq => hnew (heq ▸ mem_map_of_mem hother)]
      exact h.routes_eq other hother
    · obtain rfl := mem_singleton.1 hother
      have hnone : routes.filter (·.segment == r.segment) = [] := by
        rw [filter_eq_nil_iff]
        intro q hq heq
        exact hunseen (mem_map.2 ⟨q, hq, by simpa using heq⟩)
      rw [filter_segment_concat, hnone, nil_append]
  · intro other hother
    rcases mem_append.1 hother with hother | hother
    · exact h.routes_ne_nil other hother
    · simp [mem_singleton.1 hother]
  · rw [flatMap_append, flatMap_singleton]
    exact h.perm.append_right [r]

/-- **The step.** One more route keeps the partition. -/
theorem add {g : Grouping} (h : IsPartition routes g.groups) (r : Route) :
    IsPartition (routes ++ [r]) (g.add r).groups := by
  rcases g.add_cases r with ⟨front, group, back, hgroups, hsegment, hadd⟩ | ⟨hnew, hadd⟩
  · rw [hadd]
    exact (hgroups ▸ h).extended hsegment
  · rw [hadd]
    exact h.opened hnew

/-- The segments say what the groups are. -/
theorem eq_map {groups : List RouteGroup} (h : IsPartition routes groups) :
    groups = (groups.map RouteGroup.segment).map fun segment =>
      { segment, routes := routes.filter (·.segment == segment) } := by
  rw [map_map]
  refine (map_id groups).symm.trans (map_congr_left fun group hgroup => ?_)
  show group = { segment := group.segment, routes := routes.filter (·.segment == group.segment) }
  rw [← h.routes_eq group hgroup]

/-- There is only one partition. -/
theorem unique {groups groups' : List RouteGroup} (h : IsPartition routes groups)
    (h' : IsPartition routes groups') : groups = groups' := by
  rw [h.eq_map, h'.eq_map, h.segments.unique h'.segments]

end IsPartition

/-- **The run.** The pass over all routes gives their partition. -/
theorem isPartition_groups (routes : List Route) : IsPartition routes (groups routes) := by
  induction routes using reverseRecOn with
  | nil => exact ⟨firstAppearances_eraseDups [], by simp [groups], by simp [groups], .refl _⟩
  | append_singleton routes r ih =>
    rw [groups, foldl_concat]
    exact ih.add r

/-- **Grouping is the order-preserving partition by first segment.**  The groups of a list of routes are the one
    list with these properties: their segments are the distinct ones in the order of their first appearance, each
    group is made of the routes with its segment in their order, none is empty, and together they are a permutation
    of the routes. -/
theorem isPartition_iff_eq_groups (routes : List Route) (groups : List RouteGroup) :
    IsPartition routes groups ↔ groups = Route.groups routes :=
  ⟨fun h => h.unique (isPartition_groups routes), fun h => h ▸ isPartition_groups routes⟩

/-! ### Groups and their names -/

theorem mem_groups_iff {group : RouteGroup} :
    group ∈ groups routes ↔
      group.segment ∈ routes.map segment ∧
        group.routes = routes.filter (·.segment == group.segment) := by
  have h := isPartition_groups routes
  constructor
  · intro hgroup
    exact ⟨(h.segments.mem_iff _).1 (mem_map_of_mem hgroup), h.routes_eq group hgroup⟩
  · rintro ⟨hsegment, hroutes⟩
    rw [h.eq_map, mem_map]
    exact ⟨group.segment, (h.segments.mem_iff _).2 hsegment, by rw [← hroutes]⟩

theorem firstAppearances_segments (routes : List Route) :
    FirstAppearances (routes.map segment)
      ((groups routes).map RouteGroup.segment) :=
  (isPartition_groups routes).segments

theorem map_segment_groups (routes : List Route) :
    (groups routes).map RouteGroup.segment = (routes.map segment).eraseDups :=
  (firstAppearances_segments routes).unique (firstAppearances_eraseDups _)

/-- A named group holds exactly the routes with its segment, in their order. -/
theorem NamedGroup.routes_eq (hg : g ∈ nameGroups (groups routes)) :
    g.routes = routes.filter (·.segment == g.segment) :=
  (mem_groups_iff.1 (toRouteGroup_mem hg)).2

theorem NamedGroup.mem_routes_iff (hg : g ∈ nameGroups (groups routes)) {r : Route} :
    r ∈ g.routes ↔ r ∈ routes ∧ r.segment = g.segment := by
  rw [NamedGroup.routes_eq hg, mem_filter, beq_iff_eq]

/-- No group is empty. -/
theorem NamedGroup.exists_mem_routes (hg : g ∈ nameGroups (groups routes)) : ∃ r, r ∈ g.routes := by
  obtain ⟨r, hr, hsegment⟩ := mem_map.1 (mem_groups_iff.1 (toRouteGroup_mem hg)).1
  exact ⟨r, (NamedGroup.mem_routes_iff hg).2 ⟨hr, hsegment⟩⟩

theorem map_segment_nameGroups (groups : List RouteGroup) :
    (nameGroups groups).map (·.segment) = groups.map RouteGroup.segment := by
  conv_rhs => rw [← map_toRouteGroup_nameGroups groups]
  rw [map_map]
  rfl

theorem firstAppearances_namedSegments (routes : List Route) :
    FirstAppearances (routes.map segment)
      ((nameGroups (groups routes)).map (·.segment)) := by
  rw [map_segment_nameGroups]
  exact firstAppearances_segments routes

theorem exists_group {r : Route} (hr : r ∈ routes) :
    ∃ g ∈ nameGroups (groups routes), g.segment = r.segment ∧ r ∈ g.routes := by
  have hmem := ((firstAppearances_namedSegments routes).mem_iff r.segment).2 (mem_map_of_mem hr)
  obtain ⟨g, hg, hsegment⟩ := mem_map.1 hmem
  exact ⟨g, hg, hsegment, (NamedGroup.mem_routes_iff hg).2 ⟨hr, hsegment.symm⟩⟩

end ServiceCompiler
