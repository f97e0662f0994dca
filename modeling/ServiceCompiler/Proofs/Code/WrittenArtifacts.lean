import ServiceCompiler.Compile
import ServiceCompiler.Proofs.Code.ArtifactSet
import ServiceCompiler.Proofs.Code.ExactWriting

namespace ServiceCompiler

open Files

/-!
# The artifacts in the output directory

What is in the output directory after the artifacts of a service were written.

* `isDescent_path` — the artifacts of a generator stay in that directory, and out of the one of the client project.
* `Compilation.read_of_write` — after writing, each artifact is read below the output directory.
-/

/-! ### The artifacts of a generator -/

theorem isName_of_isFileName {file : String} (h : IsFileName file) : IsName file := by
  obtain ⟨stem, -, -, rfl⟩ := h
  have hletter : 'g' ∈ (stem ++ ".go").toList := by simp
  refine ⟨?_, ?_, ?_⟩ <;>
  · intro heq
    rw [heq] at hletter
    exact absurd hletter (by decide)

/-- The artifacts lie below the output directory, and not in the client project. -/
theorem isDescent_path {g : Generator} {as : List Artifact} (h : ArtifactSet g as) {a : Artifact} (ha : a ∈ as) :
    IsDescent a.path ∧ ¬ ["client"] <+: parts a.path := by
  rcases h.mem_knownPaths_or ha with hpath | ⟨file, hfile, hpath⟩
  · revert hpath
    generalize a.path = path
    revert path
    decide
  · have hparts : parts a.path = ["routes", file] := by
      rw [hpath, show "routes/" ++ file = "routes" ++ "/" ++ file from rfl, parts_append,
        parts_of_notMem hfile.slash_notMem]
      rfl
    rw [IsDescent, hparts]
    refine ⟨List.forall_mem_cons.2 ⟨by decide, List.forall_mem_singleton.2 (isName_of_isFileName hfile)⟩, ?_⟩
    rw [List.cons_prefix_cons]
    exact fun hclient => absurd hclient.1 (by decide)

/-! ### Compilations -/

namespace Compilation

/-- **Writing a compilation.** If it succeeds, all artifacts are there. -/
theorem read_of_write {c : Compilation} {g : Generator} (hset : ArtifactSet g c.artifacts) {stopped : Bool}
    {directory : String} {t t' : FileTree} {w : Writer} (hrooted : isRooted t.workingDirectory = true)
    (h : c.write stopped directory t = (.ok w, t')) :
    t'.workingDirectory = t.workingDirectory ∧
      ∀ a ∈ c.artifacts, t'.read (join directory a.path) = .ok a.content := by
  have hnodup : (c.artifacts.map Artifact.path).Nodup := by
    refine List.Nodup.of_map Text.lower ?_
    rw [List.map_map]
    exact hset.nodup_lower
  rw [write] at h
  rcases hwrite : (Writer.ofSettings directory c.settings).write stopped c.artifacts t with ⟨⟨w', _ | f⟩, s⟩
  · simp only [hwrite] at h
    obtain rfl : s = t' := congrArg Prod.snd h
    have hwrote := (Writer.wrote hrooted (fun a ha => (isDescent_path hset ha).1) hnodup stopped hwrite).1
    exact ⟨hwrote.keeps.workingDirectory, hwrote.read⟩
  · simp only [hwrite] at h
    cases h

end Compilation

end ServiceCompiler
