import Mathlib.Data.List.Induction
import ServiceCompiler.Directive.Build

namespace ServiceCompiler

open Service Build Directive List

/-!
# Runs over lines

A build is a run of steps, one for each line.  What a line does is a matter of its text: it is a directive,
it leaves a warning, or it is refused and ends the build.

* `Service.step_eq` — what a step can do, in these terms.
* `Service.afterLines` — the service after a run in which lines with unsupported values are passed over;
  it is the fold of the directives alone (`Service.afterLines_eq_applyAll`).
* `Build.foldlM_step_eq` — a run in closed form: the first refusal, or else the service after the lines
  together with their warnings.
* `Build.ofLines_eq_error_iff`, `Build.ofLines_eq_ok_iff` — hence how a build fails and what it ends at.
-/

/-- The directive that a reading gives, if it gives one. -/
def Reading.directive? : Reading → Option Directive
  | .effective d => some d
  | .malformed _ | .unrecognized | .unsupported _ => none

/-- The directive that a line is read as, if it is one. -/
def Line.directive? (line : Line) : Option Directive := (read line.text).directive?

/-- The value that is not supported in a line with this text, if there is one. -/
def Directive.refusal? (text : String) : Option UnsupportedValue :=
  match read text with
  | .unsupported value => some value
  | .effective _ | .malformed _ | .unrecognized => none

/-- The error at which a line ends a build, if it ends it. -/
def Line.refusal? (line : Line) : Option DirectiveError :=
  (Directive.refusal? line.text).map fun value => { value with line := line.number }

/-- The warning that a line leaves, if it leaves one. -/
def Line.warning? (line : Line) : Option Warning :=
  match read line.text with
  | .malformed rule => some { line, kind := .malformed, directive := rule }
  | .unrecognized => some { line, kind := .unrecognized }
  | .effective _ | .unsupported _ => none

/-- Whether the line gives a directive a value that is not supported. -/
def Line.IsFatal (line : Line) : Prop := ∃ value, read line.text = .unsupported value

theorem Line.refusal?_eq_none_iff {line : Line} : line.refusal? = none ↔ ¬ line.IsFatal := by
  rw [Line.refusal?, Directive.refusal?, Line.IsFatal]
  cases read line.text <;> simp

def directivesOf (lines : List Line) : List Directive := lines.filterMap Line.directive?

/-- The service with a list of directives added, one after another. -/
def Service.applyAll (s : Service) (ds : List Directive) : Service := ds.foldl (fun s d => d.apply s) s

theorem Service.applyAll_append (s : Service) (ds es : List Directive) :
    s.applyAll (ds ++ es) = (s.applyAll ds).applyAll es :=
  foldl_append

theorem directivesOf_concat (lines : List Line) (line : Line) :
    directivesOf (lines ++ [line]) = directivesOf lines ++ line.directive?.toList := by
  rw [directivesOf, filterMap_append, filterMap_cons]
  cases line.directive? <;> rfl

/-! ### Steps -/

/-- The service after one line; a line with an unsupported value leaves it as it was. -/
def Service.afterLine (s : Service) (line : Line) : Service :=
  match s.step line with
  | .ok (s', _) => s'
  | .error _ => s

/-- What a step can do: end the build, or go on with the service after the line and its warning. -/
theorem Service.step_eq (s : Service) (line : Line) :
    s.step line =
      match line.refusal? with
      | some e => .error e
      | none => .ok (s.afterLine line, line.warning?) := by
  rw [afterLine, step, Line.refusal?, Directive.refusal?, Line.warning?]
  cases read line.text <;> rfl

theorem Service.step_eq_error_iff {s : Service} {line : Line} {e : DirectiveError} :
    s.step line = .error e ↔ line.refusal? = some e := by
  rw [Service.step_eq]
  cases line.refusal? <;> simp

theorem Service.afterLine_eq (s : Service) (line : Line) : s.afterLine line = s.applyAll line.directive?.toList := by
  rw [afterLine, step, Line.directive?]
  cases read line.text <;> rfl

/-- The service after a list of lines, beginning with the default service. -/
def Service.afterLines (lines : List Line) : Service := lines.foldl afterLine {}

/-- Lines that are no directives leave no trace in a run. -/
theorem Service.afterLines_eq_applyAll (lines : List Line) :
    Service.afterLines lines = applyAll {} (directivesOf lines) := by
  induction lines using reverseRecOn with
  | nil => rfl
  | append_singleton lines line ih =>
    rw [Service.afterLines, foldl_append, ← Service.afterLines, ih, directivesOf_concat, applyAll_append]
    exact afterLine_eq _ line

/-! ### Builds -/

/-- The build after lines none of which ends it. -/
def Build.afterLines (b : Build) (lines : List Line) : Build where
  service := lines.foldl afterLine b.service
  warnings := b.warnings ++ lines.filterMap Line.warning?

/-- A step of a build is a step of its service. -/
theorem Build.step_eq (b : Build) (line : Line) :
    b.step line =
      match line.refusal? with
      | some e => .error e
      | none => .ok (b.afterLines [line]) := by
  rw [step, Service.step_eq]
  cases line.refusal? with
  | some e => rfl
  | none =>
    show Except.ok _ = Except.ok _
    rw [afterLines, filterMap_cons, filterMap_nil]
    cases line.warning? <;> rfl

theorem Build.afterLines_cons (b : Build) (line : Line) (lines : List Line) :
    b.afterLines (line :: lines) = (b.afterLines [line]).afterLines lines := by
  simp only [afterLines, foldl_cons, foldl_nil, append_assoc,
    ← filterMap_append, singleton_append]

/-- **A run in closed form.** The first refusal ends it; without one it ends at the service after the
    lines, and what is added are their warnings. -/
theorem Build.foldlM_step_eq (b : Build) (lines : List Line) :
    lines.foldlM step b =
      match lines.findSome? Line.refusal? with
      | some e => .error e
      | none => .ok (b.afterLines lines) := by
  induction lines generalizing b with
  | nil =>
    show Except.ok b = Except.ok (b.afterLines [])
    simp [afterLines]
  | cons line lines ih =>
    rw [foldlM_cons, step_eq, findSome?_cons]
    cases line.refusal? with
    | some e => rfl
    | none =>
      show lines.foldlM step (b.afterLines [line]) = _
      rw [ih, ← afterLines_cons]

/-- **The first refusal decides.** A build fails with the error of the first line that is refused. -/
theorem Build.ofLines_eq_error_iff {lines : List Line} {e : DirectiveError} :
    ofLines lines = .error e ↔ lines.findSome? Line.refusal? = some e := by
  rw [ofLines, foldlM_step_eq]
  cases lines.findSome? Line.refusal? <;> simp

/-- A build that succeeds ends at the service after the run and the warnings of its lines. -/
theorem Build.ofLines_eq_ok_iff {lines : List Line} {b : Build} :
    ofLines lines = .ok b ↔
      (∀ l ∈ lines, l.refusal? = none) ∧
        b = ⟨Service.afterLines lines, lines.filterMap Line.warning?⟩ := by
  rw [ofLines, foldlM_step_eq, ← findSome?_eq_none_iff]
  cases lines.findSome? Line.refusal? with
  | some e => simp
  | none => simp [afterLines, Service.afterLines, eq_comm]

/-- **Success is decided line by line.** A build succeeds exactly when no line has an unsupported
    value. -/
theorem Build.exists_ofLines_iff {lines : List Line} :
    (∃ b, ofLines lines = .ok b) ↔ ∀ l ∈ lines, ¬ l.IsFatal := by
  simp only [ofLines_eq_ok_iff, Line.refusal?_eq_none_iff, exists_and_left, exists_eq, and_true]

/-- A build that succeeds ends at the service after the run. -/
theorem Build.service_ofLines {lines : List Line} {b : Build} (h : ofLines lines = .ok b) :
    b.service = Service.afterLines lines := by
  rw [(ofLines_eq_ok_iff.1 h).2]

end ServiceCompiler
