import ServiceCompiler.Proofs.Code.Generation
import ServiceCompiler.Proofs.Files.Change
import ServiceCompiler.Proofs.Service.Document
import ServiceCompiler.Settings.File

namespace ServiceCompiler.Settings

open Document (Decode ReadBack isPrintable part_set readBack_record readBack_text readBack_number readBack_flag)
open Document.Decode (Gives gives_pure)

/-!
# The settings file is read back

Settings are written with all their members, so that none of the defaults which they are decoded over is left.

* `readBack` — every member of the document replaces its default.
* `ofText_toText` — the text of a settings file.
* `load_of_save` — the file.
-/

theorem isPrintable_modulePath {s : Settings} (h : s.check = .ok ()) : ∀ c ∈ s.modulePath.toList, isPrintable c := by
  intro c hc
  have himport := ImportPath.isImportChar_of_check (bounds_of_check h).1 c hc
  rw [ImportPath.isImportChar, Bool.and_eq_true, Bool.and_eq_true, decide_eq_true_eq, decide_eq_true_eq] at himport
  simp only [isPrintable, Bool.and_eq_true, decide_eq_true_eq]
  omega

section Text

variable {s : Settings} (hcheck : s.check = .ok ()) (hworkers : s.workers < Number.signedLimit)

include hcheck hworkers in
theorem numbers_inRange : (0 ≤ s.bcryptCost ∧ s.bcryptCost < Number.signedLimit) ∧
    (0 ≤ s.workers ∧ s.workers < Number.signedLimit) := by
  obtain ⟨-, ⟨hleast, hgreatest⟩, hpositive⟩ := bounds_of_check hcheck
  have hlimit : maxCost < Number.signedLimit := by decide
  have hminCost : 0 ≤ minCost := by decide
  omega

variable (hheader : ∀ c ∈ s.header.toList, isPrintable c) (hversion : ∀ c ∈ s.goVersion.toList, isPrintable c)
include hcheck hworkers hheader hversion

/-- Whatever the settings are decoded over, nothing of it is left. -/
theorem readBack (listed : Bool) (a : Settings) :
    ReadBack (isPrintable ·) listed 2 s.toDocument (Decode.record "gen.Config" members a) (some s) := by
  obtain ⟨hcost, hcount⟩ := numbers_inRange hcheck hworkers
  exact readBack_record (.cons (part_set rfl (readBack_text _ (isPrintable_modulePath hcheck)) rfl)
    (.cons (part_set rfl (readBack_text _ hheader) rfl) (.cons (part_set rfl (readBack_number hcost) rfl)
      (.cons (part_set rfl (readBack_text _ hversion) rfl) (.cons (part_set rfl (readBack_number hcount) rfl)
        (part_set rfl (readBack_flag _) rfl)))))) (by decide)

/-- **The text of a settings file** is read as the settings. -/
theorem ofText_toText : ofText s.toText = .ok s := by
  have hread := readBack hcheck hworkers hheader hversion true {}
  obtain ⟨root, size, hroot, htree⟩ := Document.exists_tree_yaml 4 (by decide) hread.writable (by decide)
  have hgives : Gives (decode {} root) s := (hread.gives root hroot).bind (gives_pure _)
  rw [ofText, toText, toDocument, Decode.run_of_tree htree hgives]
  show (do s.check.mapError Failure.settings; return s) = _
  rw [hcheck]
  rfl

end Text

/-- What is saved is written last, after the directories are made. -/
theorem write_of_save {s : Settings} {path : String} {t t' : FileTree} (h : s.save path t = (.ok (), t')) :
    ∃ u : FileTree, u.write path s.toText = .ok t' := by
  have hwrite : ∀ u, FileAction.write path s.toText u = (.ok (), t') → ∃ u : FileTree, u.write path s.toText = .ok t' := by
    intro u hu
    refine ⟨u, ?_⟩
    rw [FileAction.write, FileAction.change] at hu
    split at hu
    · cases hu
    · rename_i hok
      rw [hok, (Prod.mk.inj hu).2]
  rw [save] at h
  split at h
  · rw [bind_apply] at h
    split at h
    · exact hwrite _ h
    · cases h
  · exact hwrite t h

/-- **The settings file is read back.** Settings that pass the check, with a printable header and language version
    and no more workers than a word counts, are loaded as they were saved, wherever saving them succeeds. -/
theorem load_of_save {s : Settings} {path : String} {t t' : FileTree} (hcheck : s.check = .ok ())
    (hworkers : s.workers < Number.signedLimit) (hheader : ∀ c ∈ s.header.toList, isPrintable c)
    (hversion : ∀ c ∈ s.goVersion.toList, isPrintable c) (hsave : s.save path t = (.ok (), t')) :
    load t' path = .ok s := by
  obtain ⟨u, hwrite⟩ := write_of_save hsave
  rw [load, FileTree.read_of_write hwrite]
  exact ofText_toText hcheck hworkers hheader hversion

/-- Settings with an empty header, the version of another type of value, and the default for the views. -/
def disguised : Settings :=
  { modulePath := "example.com/a~b/v2", header := "", bcryptCost := 4, goVersion := "1.20", workers := 8 }

theorem load_of_save_disguised :
    disguised.check = .ok () ∧ disguised.workers < Number.signedLimit ∧
    ∃ t', disguised.save "conf/essence.yaml" { workingDirectory := "/w" } = (.ok (), t') ∧
      load t' "conf/essence.yaml" = .ok disguised := by
  have hsaved : (disguised.save "conf/essence.yaml" { workingDirectory := "/w" }).1.toBool = true := by decide +kernel
  have hcheck : disguised.check = .ok () := by rfl
  refine ⟨hcheck, by decide, ?_⟩
  rcases hsave : disguised.save "conf/essence.yaml" { workingDirectory := "/w" } with ⟨f | ⟨⟩, t'⟩
  · rw [hsave] at hsaved
    cases hsaved
  · exact ⟨t', rfl, load_of_save hcheck (by decide) (List.all_eq_true.1 (by decide)) (List.all_eq_true.1 (by decide)) hsave⟩

end ServiceCompiler.Settings
