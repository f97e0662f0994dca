import Mathlib.Data.List.Basic
import ServiceCompiler.Proofs.Scaffold.Confinement

namespace ServiceCompiler.Scaffold

open Files FileAction List

/-!
# Setting up a client project stops at the first failure

The work is a list of steps, and the first that fails ends it.

* `stages` — the steps, in their order.
* `Performs` — an action takes steps up to the first that fails; `performs_run` — the whole work does.
* `run_stopsAtFirstFailure` — how the work ends, and what it changed until then.
-/

/-! ### Steps -/

/-- A step of the work: its name, what it does to the files, and the command that it runs, if it runs one. -/
structure Stage where
  name : String
  action : FileAction Unit
  command : Option Command := none

/-- The failure of a step is told with its name, unless the program does not survive it. -/
def Stage.failure (s : Stage) : Failure → Failure
  | .crash => .crash
  | f => .step s.name f

/-- The step of a command. -/
def Stage.ofCommand (runner : CommandRunner) (directory : String) (c : Command) : Stage :=
  { name := c.line, action := runner directory c, command := some c }

/-- The steps that change files without a command. -/
def fileStages (project backend : String) : List Stage :=
  let directory := join project "client"
  let sourceDirectory := join directory "src"
  [{ name := "patch package.json", action := patchProxy (join directory "package.json") backend },
   { name := "write sources", action := writeSources sourceDirectory backend },
   { name := "rewire App.js", action := rewireApp (join sourceDirectory "App.js") }]

/-- The steps for a plan. -/
def stages (runner : CommandRunner) (project : String) (plan : ScaffoldPlan) : List Stage :=
  let directory := join project "client"
  { name := "create client directory", action := makeDirectories directory } ::
    plan.commands.map (Stage.ofCommand runner directory) ++ fileStages project plan.backend

/-- The steps succeed, one after the other. -/
def Succeed : List Stage → FileTree → FileTree → Prop
  | [], t, t' => t' = t
  | s :: rest, t, t' => ∃ t₁, s.action t = (.ok (), t₁) ∧ Succeed rest t₁ t'

/-- The work ends when no step is left, or with the failure of the next one. -/
inductive Ends : List Stage → FileTree → Except Failure Unit → FileTree → Prop
  | done (t : FileTree) : Ends [] t (.ok ()) t
  | failed {s : Stage} {later : List Stage} {t t' : FileTree} {f : Failure} (h : s.action t = (.error f, t')) :
      Ends (s :: later) t (.error (s.failure f)) t'

/-- The commands of the steps that were tried: those that succeeded and the next one. -/
def issued (directory : String) (passed rest : List Stage) : List (String × Command) :=
  (passed ++ rest.take 1).filterMap fun s => s.command.map (directory, ·)

/-- The action takes the steps up to the first that fails. -/
def Performs (runner : CommandRunner) (directory : String) (steps : List Stage) (x : Run Unit) : Prop :=
  ∀ w, w.runner = runner → ∃ passed rest t, steps = passed ++ rest ∧ Succeed passed w.files t ∧
    Ends rest t (x w).1 (x w).2.files ∧ (x w).2.commands = w.commands ++ issued directory passed rest ∧
    (x w).2.runner = runner

section Performs

variable {runner : CommandRunner} {directory : String}

theorem Succeed.append {steps steps' : List Stage} {t t' t'' : FileTree} (h : Succeed steps t t')
    (h' : Succeed steps' t' t'') : Succeed (steps ++ steps') t t'' := by
  induction steps generalizing t with
  | nil => exact (show t' = t from h) ▸ h'
  | cons s steps ih =>
    obtain ⟨t₁, haction, hrest⟩ := h
    exact ⟨t₁, haction, ih hrest⟩

theorem performs_report (record : LogRecord) : Performs runner directory [] (Run.report record) := fun w hw =>
  ⟨[], [], w.files, rfl, rfl, .done _, (append_nil _).symm, hw⟩

theorem Performs.bind {steps steps' : List Stage} {x y : Run Unit} (hx : Performs runner directory steps x)
    (hy : Performs runner directory steps' y) : Performs runner directory (steps ++ steps') (x >>= fun _ => y) := by
  intro w hw
  obtain ⟨passed, rest, t, rfl, hpassed, hends, hcommands, hrunner⟩ := hx w hw
  rw [bind_apply]
  rcases hresult : x w with ⟨f | _, w₁⟩ <;> rw [hresult] at hends hcommands hrunner
  · cases hends with
    | @failed s later _ _ _ haction =>
      exact ⟨passed, s :: (later ++ steps'), t, by simp, hpassed, .failed haction, hcommands, hrunner⟩
  · cases hends
    obtain ⟨passed', rest', t', rfl, hpassed', hends', hcommands', hrunner'⟩ := hy w₁ hrunner
    refine ⟨passed ++ passed', rest', t', by simp, hpassed.append hpassed', hends', ?_, hrunner'⟩
    rw [hcommands', hcommands]
    simp [issued]

/-- One step. -/
theorem performs_step (s : Stage) {action : Run Unit} (haction : ∀ w, w.runner = runner → action w =
    ((s.action w.files).1, { w with
      files := (s.action w.files).2
      commands := w.commands ++ (s.command.map (directory, ·)).toList })) :
    Performs runner directory [s] (step s.name action) := by
  intro w hw
  rw [step, haction w hw]
  rcases hresult : s.action w.files with ⟨f | _, t⟩
  · have hcommands : issued directory [] [s] = (s.command.map (directory, ·)).toList := by
      cases hc : s.command <;> simp [issued, hc]
    refine ⟨[], [s], w.files, rfl, rfl, ?_, ?_, ?_⟩
    · cases f <;> exact .failed hresult
    · cases f <;> rw [hcommands]
    · cases f <;> exact hw
  · refine ⟨[s], [], t, rfl, ⟨t, hresult, rfl⟩, .done t, ?_, hw⟩
    cases hc : s.command <;> simp [issued, hc]

theorem performs_commands (commands : List Command) : Performs runner directory
    (commands.map (Stage.ofCommand runner directory)) (commands.forM (runCommand directory)) := by
  induction commands with
  | nil => exact fun w hw => ⟨[], [], w.files, rfl, rfl, .done _, (append_nil _).symm, hw⟩
  | cons c commands ih =>
    have hcommand : Performs runner directory [Stage.ofCommand runner directory c] (runCommand directory c) :=
      (performs_report _).bind (performs_step (Stage.ofCommand runner directory c) fun w hw => by
        subst hw
        rfl)
    exact hcommand.bind ih

end Performs

/-- **The whole work** takes the steps of the plan. -/
theorem performs_run (runner : CommandRunner) (project : String) (plan : ScaffoldPlan) :
    Performs runner (join project "client") (stages runner project plan) (run project plan) := by
  have hfiles : ∀ (name : String) (action : FileAction Unit),
      Performs runner (join project "client") [{ name, action }] (step name (Run.files action)) := fun name action =>
    performs_step { name, action } fun w _ => by
      rw [Option.map_none, Option.toList_none, append_nil]
      rfl
  exact (hfiles _ _).bind ((performs_report _).bind ((performs_commands plan.commands).bind ((hfiles _ _).bind
    ((hfiles _ _).bind ((hfiles _ _).bind (performs_report _))))))

theorem issued_prefix {runner : CommandRunner} {project : String} {plan : ScaffoldPlan} {passed rest : List Stage}
    (h : stages runner project plan = passed ++ rest) :
    issued (join project "client") passed rest <+: plan.commands.map (join project "client", ·) := by
  have hall : plan.commands.map (join project "client", ·) =
      (passed ++ rest).filterMap fun s => s.command.map (join project "client", ·) := by
    rw [← h]
    simp [stages, fileStages, Stage.ofCommand, filterMap_map, Function.comp_def]
  rw [hall, issued]
  exact ((prefix_append_right_inj passed).2 (List.take_prefix 1 rest)).filterMap _

/-! ### Crashes -/

section Crashes

/-- Failures that the program survives. -/
def IsSurvived (f : Failure) : Prop := f ≠ .crash

theorem isSurvived_file (e : FileError) : IsSurvived (.file e) := by simp [IsSurvived]

theorem isSurvived_look {α : Type} (operation : FileTree → Except FileError α) :
    FailsOnly IsSurvived (FileAction.look operation) := by
  intro t f h
  rw [FileAction.look] at h
  cases hresult : operation t <;> rw [hresult] at h <;> cases h
  exact isSurvived_file _

theorem isSurvived_write (path content : String) : FailsOnly IsSurvived (write path content) := by
  intro t f h
  rw [write, change] at h
  cases hresult : t.write path content <;> simp only [hresult] at h <;> cases h
  exact isSurvived_file _

theorem isSurvived_makeDirectories (path : String) : FailsOnly IsSurvived (makeDirectories path) := by
  intro t f h
  simp only [makeDirectories] at h
  cases hresult : (t.makeDirectories path).1 <;> rw [hresult] at h <;> cases h
  exact isSurvived_file _

/-- The text holds a record of these members, and no number in it is too large. -/
def IsPackage (text : String) (members : List (String × Json)) : Prop :=
  Json.parse text = .ok (.record members) ∧ Json.tooLargeMember? members = none

/-- The record of a package file gets the proxy, or the file is refused, which is not survived if its value is
    nothing. -/
theorem patchPackage_cases (backend text : String) :
    (∃ members, IsPackage text members ∧
      patchPackage backend text = .ok ((Json.record (members ++ [("proxy", .text backend)])).toText ++ "\n")) ∨
    ∃ f, patchPackage backend text = .error f ∧ (∀ members, ¬ IsPackage text members) ∧
      (f = .crash ↔ Json.parse text = .ok .null) := by
  rw [patchPackage, packageMembers]
  rcases hparse : Json.parse text with e | value
  · exact .inr ⟨_, rfl, by simp [IsPackage, hparse], by simp⟩
  cases value with
  | record members =>
    dsimp only [mapError_ok, bind, Except.bind]
    rcases hlarge : Json.tooLargeMember? members with _ | ⟨place, literal⟩
    · exact .inl ⟨members, ⟨hparse, hlarge⟩, rfl⟩
    · exact .inr ⟨_, rfl, by simp [IsPackage, hparse, hlarge], by simp⟩
  | _ => exact .inr ⟨_, rfl, by simp [IsPackage, hparse], by simp⟩

theorem patchProxy_of_read {path text : String} {t : FileTree} (h : t.read path = .ok text) (backend : String) :
    patchProxy path backend t =
      match patchPackage backend text with
      | .error f => (.error f, t)
      | .ok page => write path page t := by
  rw [patchProxy, bind_apply, FileAction.read, FileAction.look, h]
  show ((patchPackage backend text : Except Failure String) >>= write path : FileAction Unit) t = _
  rw [bind_apply]
  cases patchPackage backend text <;> rfl

theorem patchProxy_eq_crash_iff (path backend : String) (t : FileTree) :
    (patchProxy path backend t).1 = .error .crash ↔ ∃ text, t.read path = .ok text ∧ Json.parse text = .ok .null := by
  rcases hread : t.read path with e | text
  · rw [patchProxy, bind_apply, FileAction.read, FileAction.look, hread]
    simp [mapError_error]
  · simp only [Except.ok.injEq, exists_eq_left', patchProxy_of_read hread]
    rcases patchPackage_cases backend text with ⟨members, hpackage, hpatch⟩ | ⟨f, hpatch, -, hcrash⟩
    · simp only [hpatch, hpackage.1, Except.ok.injEq, reduceCtorEq, iff_false]
      exact fun h => isSurvived_write _ _ t .crash h rfl
    · rw [hpatch, Except.error.injEq, hcrash]

theorem isSurvived_writeSources (directory backend : String) : FailsOnly IsSurvived (writeSources directory backend) :=
  (isSurvived_makeDirectories directory).bind fun _ => FailsOnly.forM fun _ _ => isSurvived_write _ _

theorem isSurvived_rewireApp (path : String) : FailsOnly IsSurvived (rewireApp path) :=
  (isSurvived_look _).bind fun _ => isSurvived_write _ _

/-- The program does not survive a step only if that step patches the package file. -/
theorem eq_fileStages_of_crash {runner : CommandRunner} {project : String} {plan : ScaffoldPlan}
    (hsurvives : ∀ c, FailsOnly IsSurvived (runner (join project "client") c)) {passed later : List Stage} {s : Stage}
    (h : stages runner project plan = passed ++ s :: later) {t : FileTree} (hcrash : (s.action t).1 = .error .crash) :
    s :: later = fileStages project plan.backend := by
  have hnot : ∀ steps : List Stage, (∀ s ∈ steps, FailsOnly IsSurvived s.action) → s ∉ steps := fun steps hall hs =>
    hall s hs t .crash hcrash rfl
  have hbefore := hnot ({ name := "create client directory", action := makeDirectories (join project "client") } ::
      plan.commands.map (Stage.ofCommand runner (join project "client"))) <|
    forall_mem_cons.2 ⟨isSurvived_makeDirectories _, forall_mem_map.2 fun c _ => hsurvives c⟩
  have hafter := hnot (fileStages project plan.backend).tail <| forall_mem_cons.2
    ⟨isSurvived_writeSources _ _, forall_mem_singleton.2 (isSurvived_rewireApp _)⟩
  obtain ⟨-, rfl, rfl⟩ := (append_cons_inj_of_notMem hbefore hafter).1 h
  rfl

end Crashes

/-! ### The whole work -/

/-- **Setting up a client project** takes the steps of the plan up to the first that fails.  The commands issued are
    those of the steps that were tried, the failure is told with the name of its step, and the files stay as they
    were outside of the project's directory, but for the missing directories above it.  The program does not survive
    the step that patches the package file if the value in that file is nothing. -/
theorem run_stopsAtFirstFailure {w : World} {project : String} {plan : ScaffoldPlan}
    (hrooted : isRooted w.files.workingDirectory = true) (hstays : w.runner.StaysBelow (join project "client"))
    (hsurvives : ∀ c, FailsOnly IsSurvived (w.runner (join project "client") c)) :
    ∃ passed rest t, stages w.runner project plan = passed ++ rest ∧ Succeed passed w.files t ∧
      Ends rest t (run project plan w).1 (run project plan w).2.files ∧
      (run project plan w).2.commands = w.commands ++ issued (join project "client") passed rest ∧
      issued (join project "client") passed rest <+: plan.commands.map (join project "client", ·) ∧
      ((run project plan w).1 = .error .crash ↔ rest = fileStages project plan.backend ∧
        ∃ text, t.read (join (join project "client") "package.json") = .ok text ∧ Json.parse text = .ok .null) ∧
      FileTree.Adds (· <+: w.files.place (join project "client")) (w.files.place (join project "client") <+: ·)
        w.files (run project plan w).2.files := by
  obtain ⟨passed, rest, t, hstages, hpassed, hends, hcommands, -⟩ := performs_run w.runner project plan w rfl
  refine ⟨passed, rest, t, hstages, hpassed, hends, hcommands, issued_prefix hstages, ?_,
    (bounds_run hrooted hstays plan w rfl rfl).2⟩
  rw [← patchProxy_eq_crash_iff _ plan.backend]
  generalize (run project plan w).1 = result at hends
  cases hends with
  | done => exact ⟨nofun, fun h => nomatch h.1⟩
  | @failed s later _ t' f haction =>
    have hfailure : s.failure f = .crash ↔ f = .crash := by cases f <;> simp [Stage.failure]
    rw [Except.error.injEq, hfailure]
    constructor
    · rintro rfl
      have hcrash : (s.action t).1 = .error .crash := congrArg Prod.fst haction
      have hrest := eq_fileStages_of_crash hsurvives hstages hcrash
      obtain ⟨rfl, -⟩ := List.cons.inj hrest
      exact ⟨hrest, hcrash⟩
    · rintro ⟨hrest, hcrash⟩
      obtain ⟨rfl, -⟩ := List.cons.inj hrest
      exact Except.error.inj ((congrArg Prod.fst haction).symm.trans hcrash)

/-- A world in which every command fails and changes nothing. -/
def failingCommands : World :=
  { files := { workingDirectory := "/w" }, runner := fun _ _ => throw (.other "exit status 1") }

theorem run_failingCommands_stops : isRooted failingCommands.files.workingDirectory = true ∧
    failingCommands.runner.StaysBelow (join "p" "client") ∧
    (∀ c, FailsOnly IsSurvived (failingCommands.runner (join "p" "client") c)) ∧
    ∃ passed rest t, stages failingCommands.runner "p" ⟨[⟨"npm", []⟩], ""⟩ = passed ++ rest ∧
      Succeed passed failingCommands.files t ∧ Ends rest t (run "p" ⟨[⟨"npm", []⟩], ""⟩ failingCommands).1
        (run "p" ⟨[⟨"npm", []⟩], ""⟩ failingCommands).2.files := by
  have hstays : failingCommands.runner.StaysBelow (join "p" "client") := fun _ _ => ⟨rfl, fun _ _ => rfl⟩
  have hsurvives : ∀ c, FailsOnly IsSurvived (failingCommands.runner (join "p" "client") c) := by
    intro c t f h
    cases h
    nofun
  obtain ⟨passed, rest, t, hstages, hpassed, hends, -⟩ :=
    @run_stopsAtFirstFailure failingCommands "p" ⟨[⟨"npm", []⟩], ""⟩ (by decide) hstays hsurvives
  exact ⟨by decide, hstays, hsurvives, passed, rest, t, hstages, hpassed, hends⟩

/-! ### A package file without a value -/

/-- A world in which the command that makes a project leaves nothing in its package file. -/
def nullPackage : World :=
  { files := { workingDirectory := "/w" }
    runner := RunnerScript.runner { files := [("package.json", "null"), ("src/App.js", "")] } }

/-- The program did not survive. -/
def crashed : Except Failure Unit → Bool
  | .error .crash => true
  | _ => false

theorem crashed_iff {r : Except Failure Unit} : crashed r = true ↔ r = .error .crash := by
  rcases r with f | _
  · cases f <;> simp [crashed]
  · simp [crashed]

/-- Setting up a client project there fails without the name of a step. -/
theorem run_nullPackage_crashes :
    (run "p" { commands := [⟨"npx", ["create-react-app", "."]⟩], backend := "http://localhost:3000" } nullPackage).1 =
      .error .crash :=
  crashed_iff.1 (by decide +kernel)

end ServiceCompiler.Scaffold
