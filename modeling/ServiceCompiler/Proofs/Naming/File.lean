import ServiceCompiler.Proofs.Naming.Fresh

namespace ServiceCompiler

open Text List
open Naming (Names)

/-!
# Files of route groups

Whatever stands in a path, the file of its group has a plain name.

* `IsFileName` — letters, digits and underscores in front of the file ending: nothing in such a name leads
  out of its directory.
* `isFileName_fileName` — the wanted name of a group is of this form, and numbers keep it so
  (`IsFileName.candidate`).
* `nameGroupsFrom_hands_files` — naming groups is a run over file names, too, so that they are distinct even
  where case does not count (`nodup_files`).
-/

/-- A name of ASCII letters, digits and underscores with the ending of source files. -/
def IsFileName (name : String) : Prop :=
  ∃ stem : String, stem ≠ "" ∧ (∀ c ∈ stem.toList, isWordChar c) ∧ name = stem ++ ".go"

theorem IsFileName.slash_notMem {name : String} (h : IsFileName name) : '/' ∉ name.toList := by
  obtain ⟨stem, -, hstem, rfl⟩ := h
  rw [String.toList_append, mem_append, not_or]
  exact ⟨fun hmem => absurd (hstem _ hmem) (by decide), by decide⟩

/-! ### The wanted name -/

/-- What is no letter or digit becomes an underscore. -/
theorem Naming.isWordChar_replaced (c : Char) :
    isWordChar (if isAsciiLetter c || isDigit c then c else '_') := by
  split
  · rename_i h
    rw [isWordChar, h]
    rfl
  · decide

theorem Naming.isFileName_fileName (segment : String) : IsFileName (fileName segment) := by
  rw [fileName]
  split
  · exact ⟨"root", by decide, all_eq_true.1 (by decide), rfl⟩
  · rename_i hne
    refine ⟨_, ?_, ?_, rfl⟩
    · intro hempty
      have hchars := congrArg String.toList (String.append_eq_empty_iff.1 hempty).1
      rw [String.toList_ofList] at hchars
      exact hne (String.toList_eq_nil_iff.1 (map_eq_nil_iff.1 hchars))
    · intro c hc
      rw [String.toList_append, String.toList_ofList, mem_append, mem_map] at hc
      rcases hc with ⟨d, -, rfl⟩ | hc
      · exact Naming.isWordChar_replaced d
      · split at hc
        · have hgroup : "_group".toList.all isWordChar := by decide
          exact all_eq_true.1 hgroup c hc
        · simp at hc

/-! ### Numbered names -/

theorem Text.stripTail?_append (tail cs : List Char) : stripTail? tail (cs ++ tail) = some cs := by
  rw [stripTail?, reverse_append, stripLead?_append]
  simp

theorem Text.isDigit_eq (c : Char) : isDigit c = c.isDigit := by
  simp [isDigit, Char.isDigit, Char.le_def]

theorem Text.isWordChar_of_isDigit {c : Char} (h : c.isDigit) : isWordChar c := by
  rw [isWordChar, isDigit_eq, h]
  simp

/-- A number in front of the ending keeps the form of a file name. -/
theorem IsFileName.candidate {names : Names} (hend : names.ending = ".go") {name : String}
    (h : IsFileName name) (k : Nat) : IsFileName (names.candidate name k) := by
  rcases Nat.lt_or_ge 1 k with hk | hk
  · obtain ⟨stem, hne, hstem, rfl⟩ := h
    have hstrip : names.stem (stem ++ ".go") = stem := by
      rw [Names.stem, hend, String.toList_append, stripTail?_append]
      simp
    rw [Names.candidate_of_one_lt names _ hk, hstrip, hend]
    refine ⟨stem ++ decimal k, ?_, ?_, rfl⟩
    · exact fun hempty => hne (String.append_eq_empty_iff.1 hempty).1
    · intro c hc
      rw [String.toList_append, mem_append] at hc
      rcases hc with hc | hc
      · exact hstem c hc
      · exact isWordChar_of_isDigit (isDigit_of_mem_decimal hc)
  · rw [Names.candidate, if_pos hk]
    exact h

theorem file_eq_candidate {idents files : Names} {groups : List RouteGroup} :
    ∀ g ∈ nameGroupsFrom idents files groups, ∃ (names : Names) (k : Nat),
      names.ending = files.ending ∧ g.file = names.candidate (Naming.fileName g.segment) k := by
  induction groups generalizing idents files with
  | nil => simp [nameGroupsFrom]
  | cons group rest ih =>
    intro g hg
    rcases mem_cons.1 hg with rfl | hg
    · obtain ⟨k, -, hk⟩ := files.next_eq_candidate (Naming.fileName group.segment)
      exact ⟨files, k, rfl, hk⟩
    · have hrest := ih g hg
      exact hrest

/-- **Plain file names.** The file of every group has a plain name. -/
theorem isFileName_of_mem_nameGroups {groups : List RouteGroup} {g : NamedGroup}
    (hg : g ∈ nameGroups groups) : IsFileName g.file := by
  obtain ⟨names, k, hend, hfile⟩ := file_eq_candidate g hg
  rw [hfile]
  exact (Naming.isFileName_fileName g.segment).candidate hend k

/-! ### Distinct files -/

/-- Naming groups is a run over the file names. -/
theorem nameGroupsFrom_hands_files (idents files : Names) (groups : List RouteGroup) :
    ∃ after, files.Hands ((nameGroupsFrom idents files groups).map NamedGroup.file) after := by
  induction groups generalizing idents files with
  | nil => exact ⟨files, .nil files⟩
  | cons g rest ih =>
    obtain ⟨after, hafter⟩ := ih _ _
    exact ⟨after, (Names.Hands.next files _).trans hafter⟩

/-- **Distinct files.** Where case does not count, the files of all groups are distinct, and none of them
    is one that is generated in any case. -/
theorem nodup_files (groups : List RouteGroup) :
    ((nameGroups groups).map fun g => lower g.file).Nodup ∧
      ∀ g ∈ nameGroups groups, lower g.file ∉ reservedFiles := by
  obtain ⟨after, h⟩ := nameGroupsFrom_hands_files initialIdentifiers initialFiles groups
  have hkey : ∀ name, initialFiles.key name = lower name := fun _ => rfl
  constructor
  · have hnodup := h.nodup
    rw [map_map] at hnodup
    exact hnodup
  · intro g hg hreserved
    refine h.fresh g.file (mem_map_of_mem hg) ?_
    have htaken : initialFiles.taken = reservedFiles := by decide
    rw [hkey, htaken]
    exact hreserved

end ServiceCompiler
