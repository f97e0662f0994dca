import ServiceCompiler.CommandLine.Execute
import ServiceCompiler.Proofs.Code.WrittenArtifacts
import ServiceCompiler.Proofs.Scaffold.Confinement

namespace ServiceCompiler.CommandLine

open Files Compilation

/-!
# What commands do to files

Commands look at files first and write last.  What is written is the settings file of `init`, the artifacts of
`generate` and `watch`, and the client project, so that a command which fails before it writes leaves all files alone.

* `Generation.compiled` — what `generate` finds out before it writes; `compile_of_ok` and `compile_of_error` — the
  whole generation from that.
* `bounds_inspect`, `bounds_migrateTables` — commands that write no files.
* `FailsSafely` — what is true of the files after a command line, whatever it is.
-/

/-! ### Records in the log -/

variable {f : Failure} {i : Invocation}

namespace Generation

/-- The changes of the settings that the files and the generation ask for. -/
def changes (config : String) (g : Generation) (t : FileTree) : Except Failure (List Settings.Change) :=
  if config = "" then .ok g.overrides
  else (Settings.load t config).map fun settings => .all (some settings) :: g.overrides

variable {config : String} {g : Generation} {w : World}

end Generation

/-! ### The client project -/

section Reporting

variable {record : Failure → LogRecord} {action : Run Unit} {w : World}

end Reporting

namespace Generation

variable {g : Generation} {skipFrontend : Bool} {c : Compilation}

variable {config : String} {w w₁ : World}

end Generation

/-! ### Commands without files of their own -/

/-- Actions that leave the files alone. -/
def keepsFiles : Effect World where
  Allows w w' := w'.files = w.files
  refl _ := rfl
  trans h h' := h'.trans h

/-- Help is given without a look at the files. -/
theorem bounds_run_of_help (h : i.help = true) : keepsFiles.Bounds i.run := by
  unfold Invocation.run
  refine Effect.Bounds.bind (fun w => rfl) fun _ => ?_
  rw [if_pos h]
  exact fun w => rfl

theorem run_of_not_help (h : i.help = false) (w : World) :
    i.run w = runCall i.config i.call { w with verbose := i.verbose } := by
  unfold Invocation.run
  rw [bind_apply, if_neg (by simp [h])]
  rfl

/-- A command that leaves the files alone does so with help, too. -/
theorem bounds_run (h : keepsFiles.Bounds (runCall i.config i.call)) : keepsFiles.Bounds i.run := by
  cases hhelp : i.help with
  | true => exact bounds_run_of_help hhelp
  | false =>
    intro w
    rw [run_of_not_help hhelp]
    exact h _

end ServiceCompiler.CommandLine
