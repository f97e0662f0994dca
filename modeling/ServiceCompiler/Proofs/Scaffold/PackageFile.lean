import Mathlib.Logic.Function.Basic
import ServiceCompiler.Proofs.Json.RoundTrip
import ServiceCompiler.Proofs.Scaffold.FirstFailure

namespace ServiceCompiler

open List

/-!
# The package file gets a proxy and keeps all else

A package file is read as a whole and written again as a whole.

* `Json.parse_toText` — what is written is read as the same value.
* `Scaffold.patchProxy_setsOnlyProxy` — the value in the file changes at the proxy alone, or the file stays as it is.
-/

namespace Json

variable {members : List (String × Json)} {text : String}

theorem parse_toText {j : Json} (h : Rereads nestingLimit j) :
    ∃ j', parse (j.toText ++ "\n") = .ok j' ∧ j'.value = j.value := by
  obtain ⟨j', hvalue, hread⟩ := h
  refine ⟨j', ?_, hvalue⟩
  have htext : (j.toText ++ "\n").toList = chars 0 j ++ ['\n'] := by simp [toText]
  rw [parse, htext, hread 0 _ (ends_cons (fun s => by cases s <;> rfl) [])]
  rfl

/-- A record that has been read is read back, also with another member that holds a text. -/
theorem rereads_of_parse (h : parse text = .ok (.record members)) (key s : String) :
    Rereads nestingLimit (.record (members ++ [(key, .text s)])) := by
  obtain ⟨⟨value, rest⟩, hread, h⟩ := exists_ok_of_bind h
  obtain rfl : value = .record members := by
    dsimp only at h
    split at h <;> cases h
    rfl
  obtain h | ⟨d, hdepth, ⟨items, h, -⟩ | ⟨_, ⟨⟩, hmembers⟩⟩ := readValue_cases hread
  · exact h.elim
  · cases h
  · rw [hdepth]
    refine rereads_record (forall_mem_append.2 ⟨fun m hm => ?_, forall_mem_singleton.2 (rereads_of_isScalar trivial)⟩)
    obtain ⟨cs, rest, hread⟩ := hmembers m hm
    exact rereads_of_readValue hread

/-- One more member takes the place of all others with its name. -/
theorem value_concat (members : List (String × Json)) (key : String) (j : Json) : ∃ member?,
    (record members).value = .record member? ∧
      (record (members ++ [(key, j)])).value = .record (Function.update member? key (some j.value)) := by
  refine ⟨_, by rw [value], ?_⟩
  rw [value]
  congr 1
  funext k
  by_cases hk : k = key
  · subst hk
    simp [lastMember?]
  · simp [lastMember?, Function.update_of_ne hk, Ne.symm hk]

end Json

namespace Scaffold

/-- **Only the proxy is set.**  If the package file holds a record without numbers that are too large, then the record
    gets the backend as its proxy, and of all other names it has the last member that it had.  Otherwise the file
    stays as it is; the program survives that unless the value in the file is nothing. -/
theorem patchProxy_setsOnlyProxy (path backend : String) (t : FileTree) :
    (∃ text members t' page j member?, t.read path = .ok text ∧ IsPackage text members ∧
      (Json.record members).value = .record member? ∧ patchProxy path backend t = (.ok (), t') ∧
      t'.read path = .ok page ∧ Json.parse page = .ok j ∧
      j.value = .record (Function.update member? "proxy" (some (.text backend)))) ∨
    ∃ f, patchProxy path backend t = (.error f, t) ∧
      (∀ text, t.read path = .ok text → ∀ members, ¬ IsPackage text members) ∧
      (f = .crash ↔ ∃ text, t.read path = .ok text ∧ Json.parse text = .ok .null) := by
  rcases hread : t.read path with e | text
  · have happly : patchProxy path backend t = (.error (.file e), t) := by
      rw [patchProxy, bind_apply, FileAction.read, FileAction.look, hread]
      rfl
    exact .inr ⟨_, happly, by simp, by simp⟩
  · have happly := patchProxy_of_read hread backend
    rcases patchPackage_cases backend text with ⟨members, hpackage, hpatch⟩ | ⟨f, hpatch, hnone, hcrash⟩
    · obtain ⟨t', hwrite, hpage⟩ := FileTree.exists_write_of_read hread
        ((Json.record (members ++ [("proxy", .text backend)])).toText ++ "\n")
      obtain ⟨j, hparse, hvalue⟩ := Json.parse_toText (Json.rereads_of_parse hpackage.1 "proxy" backend)
      obtain ⟨member?, hmembers, hconcat⟩ := Json.value_concat members "proxy" (.text backend)
      rw [hpatch] at happly
      refine .inl ⟨text, members, t', _, j, member?, rfl, hpackage, hmembers, happly.trans hwrite, hpage, hparse, ?_⟩
      rw [hvalue, hconcat, Json.value]
    · rw [hpatch] at happly
      exact .inr ⟨f, happly, by simpa using hnone, by simpa using hcrash⟩

/-- A package file that holds nothing is not survived. -/
theorem patchProxy_null_crashes :
    (patchProxy "package.json" "http://localhost:3000"
      { workingDirectory := "/", entries := [(["package.json"], .file "null")] }).1 = .error .crash :=
  crashed_iff.1 (by decide +kernel)

end Scaffold

end ServiceCompiler
