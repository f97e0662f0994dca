import ServiceCompiler.Proofs.Naming.Identifier

namespace ServiceCompiler

open Naming
open Naming (Names)

/-!
# Group names depend on segments alone

The functions that register groups and the handlers draw their names from one pool.  Even so, nothing but the
segments decides how a group's function and file are called: a handler never takes a name away from a group.

* `Names.next_least` — a new name is the first of its candidates that is free.
* `Names.AgreeOn` — two pools have the same names taken among those of some kind.  Wanted names of this kind are
  then answered alike (`AgreeOn.next_eq`), and names of other kinds do not count (`AgreeOn.nextAll`).
* `nameGroups_outlines` — the names of groups begin with a capital and those of handlers do not, so that two lists
  of groups with the same segments have the same functions and files.
-/

/-! ### The first free candidate -/

namespace Naming.Names

/-- A search passes over names that are taken. -/
theorem search_least (names : Names) (name : String) (fuel i : Nat) :
    ∃ k, i ≤ k ∧ names.search name fuel i = names.candidate name k ∧
      ∀ j, i ≤ j → j < k → names.key (names.candidate name j) ∈ names.taken := by
  induction fuel generalizing i with
  | zero => exact ⟨i, Nat.le_refl i, rfl, fun j hij hji => absurd hji (by omega)⟩
  | succ fuel ih =>
    rw [search]
    by_cases htaken : names.key (names.candidate name i) ∈ names.taken
    · rw [if_pos (by simpa using htaken)]
      obtain ⟨k, hk, heq, hbefore⟩ := ih (i + 1)
      refine ⟨k, by omega, heq, fun j hij hjk => ?_⟩
      rcases Nat.eq_or_lt_of_le hij with rfl | hlt
      · exact htaken
      · exact hbefore j hlt hjk
    · rw [if_neg (by simpa using htaken)]
      exact ⟨i, Nat.le_refl i, rfl, fun j hij hji => absurd hji (by omega)⟩

/-- **A new name is the first candidate that is free.** -/
theorem next_least (names : Names) (name : String) :
    ∃ k, 1 ≤ k ∧ (names.next name).1 = names.candidate name k ∧
      names.key (names.candidate name k) ∉ names.taken ∧
      ∀ j, 1 ≤ j → j < k → names.key (names.candidate name j) ∈ names.taken := by
  obtain ⟨k, hk, heq, hbefore⟩ := search_least names name names.taken.length 1
  have hfree := next_fresh names name
  rw [show (names.next name).1 = names.candidate name k from heq] at hfree
  exact ⟨k, hk, heq, hfree, hbefore⟩

/-! ### Pools that agree on some names -/

/-- Two pools compare names in the same way, and the same names of the kind `p` are taken in both. -/
structure AgreeOn (p : String → Prop) (a b : Names) : Prop where
  foldCase : a.foldCase = b.foldCase
  ending : a.ending = b.ending
  mem_iff : ∀ name, p name → (name ∈ a.taken ↔ name ∈ b.taken)

namespace AgreeOn

variable {p : String → Prop} {a b : Names}

theorem key_eq (h : a.AgreeOn p b) : a.key = b.key := by
  funext name
  rw [key, key, h.foldCase]

theorem candidate_eq (h : a.AgreeOn p b) : a.candidate = b.candidate := by
  funext name i
  unfold candidate
  rw [h.ending]

/-- Names whose candidates are all of the kind are answered alike. -/
theorem next_eq (h : a.AgreeOn p b) {name : String} (hp : ∀ k, p (a.key (a.candidate name k))) :
    (a.next name).1 = (b.next name).1 := by
  obtain ⟨k, hk, hka, hfree, hbefore⟩ := a.next_least name
  obtain ⟨l, hl, hlb, hfree', hbefore'⟩ := b.next_least name
  rw [← h.key_eq, ← h.candidate_eq] at hfree' hbefore'
  have hsame : k = l := by
    rcases Nat.lt_trichotomy k l with hlt | heq | hgt
    · exact absurd ((h.mem_iff _ (hp k)).2 (hbefore' k hk hlt)) hfree
    · exact heq
    · exact absurd ((h.mem_iff _ (hp l)).1 (hbefore l hl hgt)) hfree'
  rw [hka, hlb, hsame, h.candidate_eq]

/-- Handing out one name keeps the agreement where both pools hand out the same. -/
theorem next (h : a.AgreeOn p b) {name : String} (heq : (a.next name).1 = (b.next name).1) :
    (a.next name).2.AgreeOn p (b.next name).2 where
  foldCase := h.foldCase
  ending := h.ending
  mem_iff := by
    intro x hx
    show x ∈ a.key (a.next name).1 :: a.taken ↔ x ∈ b.key (b.next name).1 :: b.taken
    rw [heq, h.key_eq, List.mem_cons, List.mem_cons, h.mem_iff x hx]

/-- Names of other kinds do not count, even where the pools hand out different ones. -/
theorem nextAll (h : a.AgreeOn p b) {xs ys : List String}
    (hx : ∀ x ∈ (a.nextAll xs).1, ¬ p (a.key x)) (hy : ∀ y ∈ (b.nextAll ys).1, ¬ p (b.key y)) :
    (a.nextAll xs).2.AgreeOn p (b.nextAll ys).2 := by
  have ha := Hands.nextAll a xs
  have hb := Hands.nextAll b ys
  refine ⟨ha.foldCase.trans (h.foldCase.trans hb.foldCase.symm), ha.ending.trans (h.ending.trans hb.ending.symm),
    fun name hname => ?_⟩
  have hnotx : name ∉ (a.nextAll xs).1.map a.key := by
    rw [List.mem_map]
    rintro ⟨x, hmem, rfl⟩
    exact hx x hmem hname
  have hnoty : name ∉ (b.nextAll ys).1.map b.key := by
    rw [List.mem_map]
    rintro ⟨y, hmem, rfl⟩
    exact hy y hmem hname
  simp [ha.taken, hb.taken, hnotx, hnoty, h.mem_iff name hname]

end AgreeOn

end Naming.Names

/-! ### Names of groups and names of handlers -/

/-- A name with a capital R in front, as the functions have that register groups. -/
def IsRegisterLike (name : String) : Prop := name.toList.head? = some 'R'

theorem IsRegisterLike.ne_empty {name : String} (h : IsRegisterLike name) : name ≠ "" := by
  rintro rfl
  simp [IsRegisterLike] at h

theorem isRegisterLike_numbered {name : String} (h : name ≠ "") (k : Nat) :
    IsRegisterLike (numbered name k) ↔ IsRegisterLike name := by
  unfold IsRegisterLike numbered
  split
  · rfl
  · cases hname : name.toList with
    | nil => exact absurd (String.toList_eq_nil_iff.1 hname) h
    | cons c cs => simp [hname]

theorem isRegisterLike_registerName (segment : String) : IsRegisterLike (registerName segment) := by
  rw [IsRegisterLike, registerName, String.toList_append]
  rfl

theorem not_isRegisterLike_handlerName (r : Route) :
    handlerName r ≠ "" ∧ ¬ IsRegisterLike (handlerName r) := by
  unfold handlerName IsRegisterLike
  cases r.action <;> simp

/-- A pool of identifiers: case counts, and there is no ending. -/
structure Naming.Names.IsPlain (names : Names) : Prop where
  foldCase : names.foldCase = false
  ending : names.ending = ""

section

variable {names : Names} (h : names.IsPlain)
include h

theorem Naming.Names.IsPlain.key (name : String) : names.key name = name := by
  rw [Names.key, h.foldCase]
  rfl

theorem Naming.Names.IsPlain.next (name : String) : (names.next name).2.IsPlain :=
  ⟨h.foldCase, h.ending⟩

theorem Naming.Names.IsPlain.nextAll (wanted : List String) : (names.nextAll wanted).2.IsPlain :=
  ⟨(Hands.nextAll names wanted).foldCase.trans h.foldCase, (Hands.nextAll names wanted).ending.trans h.ending⟩

/-- No handler gets a name like those of the functions that register groups. -/
theorem not_isRegisterLike_nextAll (routes : List Route) :
    ∀ x ∈ (names.nextAll (routes.map handlerName)).1, ¬ IsRegisterLike (names.key x) := by
  intro x hx
  obtain ⟨w, hw, k, rfl⟩ := Names.mem_nextAll h.ending hx
  obtain ⟨r, -, rfl⟩ := List.mem_map.1 hw
  obtain ⟨hne, hnot⟩ := not_isRegisterLike_handlerName r
  rw [h.key, isRegisterLike_numbered hne]
  exact hnot

/-- All candidates for the function of a group are like it. -/
theorem isRegisterLike_candidate (segment : String) (k : Nat) :
    IsRegisterLike (names.key (names.candidate (registerName segment) k)) := by
  have hlike := isRegisterLike_registerName segment
  rw [h.key, Names.candidate_eq_numbered h.ending, isRegisterLike_numbered hlike.ne_empty]
  exact hlike

end

/-! ### Outlines of groups -/

/-- What is seen of a group from outside its own file. -/
structure GroupOutline where
  segment : String
  register : String
  file : String
  deriving DecidableEq, Repr

def NamedGroup.outline (g : NamedGroup) : GroupOutline := ⟨g.segment, g.register, g.file⟩

/-- Groups with the same segments get the same names, whatever handlers they have.  The pools of identifiers need to
    agree on names like those of groups only. -/
theorem nameGroupsFrom_outlines {a b files : Names} {gs hs : List RouteGroup} (ha : a.IsPlain) (hb : b.IsPlain)
    (hagree : a.AgreeOn IsRegisterLike b) (hsegments : gs.map RouteGroup.segment = hs.map RouteGroup.segment) :
    (nameGroupsFrom a files gs).map NamedGroup.outline = (nameGroupsFrom b files hs).map NamedGroup.outline := by
  induction gs generalizing a b files hs with
  | nil =>
    obtain rfl : hs = [] := List.map_eq_nil_iff.1 hsegments.symm
    rfl
  | cons g gs ih =>
    cases hs with
    | nil => simp at hsegments
    | cons h hs =>
      obtain ⟨hsegment, hrest⟩ := List.cons.inj hsegments
      have hregister : (a.next (registerName g.segment)).1 = (b.next (registerName g.segment)).1 :=
        hagree.next_eq (isRegisterLike_candidate ha g.segment)
      have ha' := ha.next (registerName g.segment)
      have hb' := hb.next (registerName g.segment)
      have hagree' := (hagree.next hregister).nextAll (not_isRegisterLike_nextAll ha' g.routes)
        (not_isRegisterLike_nextAll hb' h.routes)
      have htail : ∀ files : Names, _ := fun files => @ih _ _ files _ (ha'.nextAll _) (hb'.nextAll _) hagree' hrest
      rw [nameGroupsFrom, nameGroupsFrom]
      simp only [List.map_cons, NamedGroup.outline, ← hsegment, hregister]
      exact congrArg (_ :: ·) (htail _)

/-- **Group names depend on segments alone.** -/
theorem nameGroups_outlines {gs hs : List RouteGroup}
    (hsegments : gs.map RouteGroup.segment = hs.map RouteGroup.segment) :
    (nameGroups gs).map NamedGroup.outline = (nameGroups hs).map NamedGroup.outline :=
  nameGroupsFrom_outlines ⟨rfl, rfl⟩ ⟨rfl, rfl⟩ ⟨rfl, rfl, fun _ _ => Iff.rfl⟩ hsegments

end ServiceCompiler
