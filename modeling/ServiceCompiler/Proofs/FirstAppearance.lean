import Mathlib.Data.List.Induction
import Mathlib.Data.List.Nodup
import ServiceCompiler.Directive.Basic

namespace ServiceCompiler

open List

/-!
# Members in the order of their first appearance

Route groups, collections and guarded paths are lists without repeats, in the order in which their
members turn up for the first time.

* `FirstAppearances xs ys` says so of `ys` without reference to how it was made.
* `firstAppearances_eraseDups` — removing later repeats gives such a list.
* `foldl_appendNew` — so does adding the members one by one, each unless it is there already.
* `filter_eq_singleton` — where keys do not repeat, looking for a key finds one member.
-/

variable {α : Type} [DecidableEq α]

/-- `ys` lists the members of `xs`, each once, in the order of their first appearance. -/
structure FirstAppearances (xs ys : List α) : Prop where
  nodup : ys.Nodup
  mem_iff : ∀ a, a ∈ ys ↔ a ∈ xs
  order : ys.Pairwise fun a b => xs.idxOf a < xs.idxOf b

theorem eraseDups_concat (xs : List α) (x : α) :
    (xs ++ [x]).eraseDups = if x ∈ xs then xs.eraseDups else xs.eraseDups ++ [x] := by
  rw [eraseDups_append]
  by_cases h : x ∈ xs <;> simp [removeAll, eraseDups_cons, h]

/-- **Removing later repeats** keeps one of each member, where it appeared first. -/
theorem firstAppearances_eraseDups (xs : List α) : FirstAppearances xs xs.eraseDups := by
  induction xs using reverseRecOn with
  | nil => exact ⟨nodup_nil, by simp, Pairwise.nil⟩
  | append_singleton xs x ih =>
    -- A place in `xs` is the same place in the longer list.
    have horder : xs.eraseDups.Pairwise fun a b => (xs ++ [x]).idxOf a < (xs ++ [x]).idxOf b := by
      refine ih.order.imp_of_mem ?_
      intro a b ha hb hab
      rwa [idxOf_append_of_mem ((ih.mem_iff a).1 ha), idxOf_append_of_mem ((ih.mem_iff b).1 hb)]
    rw [eraseDups_concat]
    split
    · rename_i hx
      refine ⟨ih.nodup, fun a => ?_, horder⟩
      rw [ih.mem_iff, mem_append, mem_singleton]
      exact ⟨.inl, fun h => h.elim id fun h => h ▸ hx⟩
    · rename_i hx
      refine ⟨?_, fun a => ?_, ?_⟩
      · rw [nodup_append]
        refine ⟨ih.nodup, nodup_singleton x, ?_⟩
        intro a ha b hb hab
        rw [mem_singleton.1 hb] at hab
        exact hx ((ih.mem_iff x).1 (hab ▸ ha))
      · rw [mem_append, mem_append, ih.mem_iff]
      · rw [pairwise_append]
        refine ⟨horder, pairwise_singleton _ x, ?_⟩
        intro a ha b hb
        have ha' := (ih.mem_iff a).1 ha
        rw [mem_singleton.1 hb, idxOf_append_of_mem ha', idxOf_append_of_notMem hx]
        have := idxOf_lt_length_of_mem ha'
        omega

/-- There is only one such list. -/
theorem FirstAppearances.unique {xs ys zs : List α} (hy : FirstAppearances xs ys)
    (hz : FirstAppearances xs zs) : ys = zs := by
  have hperm : ys.Perm zs :=
    (perm_ext_iff_of_nodup hy.nodup hz.nodup).2 fun a => (hy.mem_iff a).trans (hz.mem_iff a).symm
  refine hperm.eq_of_pairwise ?_ hy.order hz.order
  intro a b _ _ hab hba
  omega

/-- A member that appears again changes nothing, -/
theorem FirstAppearances.concat_of_mem {xs ys : List α} (h : FirstAppearances xs ys) {x : α} (hx : x ∈ xs) :
    FirstAppearances (xs ++ [x]) ys := by
  rw [h.unique (firstAppearances_eraseDups xs)]
  simpa [eraseDups_concat, hx] using firstAppearances_eraseDups (xs ++ [x])

/-- and a new one comes behind the others. -/
theorem FirstAppearances.concat_of_notMem {xs ys : List α} (h : FirstAppearances xs ys) {x : α} (hx : x ∉ xs) :
    FirstAppearances (xs ++ [x]) (ys ++ [x]) := by
  rw [h.unique (firstAppearances_eraseDups xs)]
  simpa [eraseDups_concat, hx] using firstAppearances_eraseDups (xs ++ [x])

/-- Adding texts one by one, each unless it is there already, removes later repeats. -/
theorem foldl_appendNew (xs : List String) : xs.foldl appendNew [] = xs.eraseDups := by
  induction xs using reverseRecOn with
  | nil => rfl
  | append_singleton xs x ih =>
    rw [foldl_concat, ih, eraseDups_concat, appendNew]
    simp

/-- In a list without repeated keys, a key belongs to one member. -/
theorem filter_eq_singleton {β γ : Type} [DecidableEq γ] {f : β → γ} {xs : List β}
    (hnodup : (xs.map f).Nodup) {x : β} (hx : x ∈ xs) : xs.filter (f · = f x) = [x] := by
  induction xs with
  | nil => simp at hx
  | cons y ys ih =>
    rw [map_cons, nodup_cons] at hnodup
    obtain ⟨hy, hys⟩ := hnodup
    rcases mem_cons.1 hx with rfl | hx
    · rw [filter_cons_of_pos (by simp), filter_eq_nil_iff.2]
      intro z hz heq
      exact hy (mem_map.2 ⟨z, hz, by simpa using heq⟩)
    · rw [filter_cons_of_neg, ih hys hx]
      intro heq
      exact hy (mem_map.2 ⟨x, hx, by simpa using (of_decide_eq_true heq).symm⟩)

end ServiceCompiler
