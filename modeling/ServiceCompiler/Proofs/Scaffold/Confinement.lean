import ServiceCompiler.Proofs.Files.Directory
import ServiceCompiler.Scaffold.Run

namespace ServiceCompiler

open Files FileTree FileAction

/-!
# Setting up a client project stays in its directory

The steps of the work write below the directory of the client project, and so do the commands by assumption; outside
of it, only the missing directories above it are made.

* `CommandRunner.StaysBelow` — the assumption.
* `Scaffold.within` — the effect of the steps.
* `Scaffold.bounds_run` — all steps together have no other effect, wherever they end.
-/

/-- A change of what lies below an address, and of nothing else. -/
structure FileTree.ChangesOnlyBelow (a : FileAddress) (t t' : FileTree) : Prop where
  workingDirectory : t'.workingDirectory = t.workingDirectory
  get? : ∀ b, ¬ a <+: b → t'.get? b = t.get? b

theorem FileTree.ChangesOnlyBelow.adds {a : FileAddress} {t t' : FileTree} (h : ChangesOnlyBelow a t t')
    (made : FileAddress → Prop) : Adds made (a <+: ·) t t' :=
  ⟨h.workingDirectory, fun b hb => .inl (h.get? b hb)⟩

/-- Commands that are run in a directory change only what lies below it, whether they fail or not. -/
def CommandRunner.StaysBelow (runner : CommandRunner) (directory : String) : Prop :=
  ∀ c t, ChangesOnlyBelow (t.address directory) t (runner directory c t).2

namespace Scaffold

/-- The changes of files that are confined to a directory: outside of it, only the missing directories above it are
    made. -/
def confined (t : FileTree) (directory : String) : Effect FileTree :=
  adding t.workingDirectory (· <+: t.place directory) (t.place directory <+: ·)

/-- The effect of setting up a client project in a directory. -/
def within (runner : CommandRunner) (t : FileTree) (directory : String) : Effect World where
  Allows w w' := w.runner = runner → w.files.workingDirectory = t.workingDirectory →
    w'.runner = runner ∧ Adds (· <+: t.place directory) (t.place directory <+: ·) w.files w'.files
  refl w hrunner _ := ⟨hrunner, Adds.refl _ _ _⟩
  trans h h' hrunner hdirectory := by
    obtain ⟨hrunner', hadds⟩ := h hrunner hdirectory
    obtain ⟨hrunner'', hadds'⟩ := h' hrunner' (hadds.workingDirectory.trans hdirectory)
    exact ⟨hrunner'', hadds.trans hadds'⟩

variable {runner : CommandRunner} {t : FileTree} {directory : String}

/-! ### Steps -/

theorem bounds_files {action : FileAction Unit}
    (h : (confined t directory).Bounds action) :
    (within runner t directory).Bounds (Run.files action) :=
  fun w hrunner hdirectory => ⟨hrunner, h w.files hdirectory⟩

theorem bounds_report (record : LogRecord) : (within runner t directory).Bounds (Run.report record) :=
  fun _ hrunner _ => ⟨hrunner, Adds.refl _ _ _⟩

/-- A step has the effect of its action: what it adds is a record in the log. -/
theorem bounds_step (name : String) {action : Run Unit} (h : (within runner t directory).Bounds action) :
    (within runner t directory).Bounds (step name action) := by
  intro w
  have hw := h w
  rw [step]
  rcases hresult : action w with ⟨f | _, w'⟩
  · rw [hresult] at hw
    cases f <;> exact hw
  · rwa [hresult] at hw

theorem bounds_command (hplace : ∀ s : FileTree, s.workingDirectory = t.workingDirectory →
    s.address directory = t.place directory) (hstays : runner.StaysBelow directory) (c : Command) :
    (within runner t directory).Bounds (Run.command directory c) := by
  intro w hrunner hdirectory
  refine ⟨hrunner, ?_⟩
  have hchange := (hstays c w.files).adds (· <+: t.place directory)
  rw [hplace w.files hdirectory, ← hrunner] at hchange
  exact hchange

/-! ### Files -/

section Rooted

variable (hrooted : isRooted t.workingDirectory = true)
include hrooted

theorem bounds_makeDirectories {folder name : String} (hname : IsDescent name)
    (hfolder : t.place directory <+: t.place (join folder name)) :
    (confined t directory).Bounds (makeDirectories (join folder name)) := by
  refine FileAction.bounds_makeDirectories fun s hs p hp habove => ?_
  have hbelow := (address_of_mem_leads (hs ▸ hrooted) hname hp).resolve_left habove
  rw [place_congr hs, ← place_join t folder hname] at hbelow
  exact List.prefix_or_prefix_of_prefix hbelow hfolder

section Folder

variable {folder name : String} (hfolder : t.place directory <+: t.place folder) (hname : IsDescent name)
include hfolder hname

/-- A file that is written somewhere below the directory. -/
theorem bounds_write (content : String) : (confined t directory).Bounds (write (join folder name) content) := by
  refine FileAction.bounds_write content fun s hs => ?_
  rw [address_join (hs ▸ hrooted) folder hname, place_congr hs]
  exact hfolder.trans (List.prefix_append _ _)

theorem bounds_patchProxy (backend : String) : (confined t directory).Bounds (patchProxy (join folder name) backend) := by
  refine (bounds_look _).bind fun text => Effect.Bounds.bind ?_ fun patched => bounds_write hrooted hfolder hname _
  intro s
  cases patchPackage backend text <;> exact Effect.refl _ s

theorem bounds_rewireApp : (confined t directory).Bounds (rewireApp (join folder name)) :=
  (bounds_look _).bind fun _ => bounds_write hrooted hfolder hname _

end Folder

theorem bounds_writeSources {folder name : String} (hname : IsDescent name)
    (hfolder : t.place directory <+: t.place (join folder name)) (backend : String) :
    (confined t directory).Bounds (writeSources (join folder name) backend) := by
  have hnames : ∀ source ∈ sources backend, IsDescent source.1 := by
    have hall : ∀ name ∈ (sources backend).map Prod.fst, IsDescent name :=
      (by decide : ∀ name ∈ ["axiosInstance.js", "Login.js", "Register.js"], IsDescent name)
    exact fun source hsource => hall source.1 (List.mem_map_of_mem hsource)
  exact (bounds_makeDirectories hrooted hname hfolder).bind fun _ => Effect.bounds_forM fun source hsource =>
    bounds_write hrooted hfolder (hnames source hsource) source.2

/-- **The whole work** stays in the directory of the client project, wherever it ends. -/
theorem bounds_run {project : String} (hstays : runner.StaysBelow (join project "client")) (plan : ScaffoldPlan) :
    (within runner t (join project "client")).Bounds (run project plan) := by
  have hplace : ∀ s : FileTree, s.workingDirectory = t.workingDirectory →
      s.address (join project "client") = t.place (join project "client") := by
    intro s hs
    rw [address_join (hs ▸ hrooted) project (by decide), place_join t project (by decide), place_congr hs]
  have hsources : t.place (join project "client") <+: t.place (join (join project "client") "src") := by
    rw [place_join t _ (by decide : IsDescent "src")]
    exact List.prefix_append _ _
  refine (bounds_step _ (bounds_files (bounds_makeDirectories hrooted (by decide) (List.prefix_refl _)))).bind fun _ => ?_
  refine (bounds_report _).bind fun _ => ?_
  refine (Effect.bounds_forM fun c _ => ?_).bind fun _ => ?_
  · exact (bounds_report _).bind fun _ => bounds_step _ (bounds_command hplace hstays c)
  · refine (bounds_step _ (bounds_files (bounds_patchProxy hrooted (List.prefix_refl _) (by decide) _))).bind fun _ => ?_
    refine (bounds_step _ (bounds_files (bounds_writeSources hrooted (by decide) hsources _))).bind fun _ => ?_
    refine (bounds_step _ (bounds_files (bounds_rewireApp hrooted hsources (by decide)))).bind fun _ => ?_
    exact bounds_report _

end Rooted

end Scaffold

end ServiceCompiler
