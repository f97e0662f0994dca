import ServiceCompiler.Proofs.Directive.Numbering
import ServiceCompiler.Proofs.Directive.Run
import ServiceCompiler.Proofs.FirstAppearance

namespace ServiceCompiler

open Line List

/-!
# Lines that are dropped

A line that is no directive is dropped, for whichever reason, and the build says so.  Nothing is dropped
without a warning, and nothing that is dropped leaves a trace.

* `Line.dropped_or_effective` — a line that is not refused is dropped or effective, and not both.
* `Build.Accounts` — the account that the warnings of a build give of its source.
* `accounts_of_ofSource` — every source that is built is accounted for.
-/

namespace Line

variable {line : Line}

/-- A warning is about its line. -/
theorem line_of_warning? {w : Warning} (h : line.warning? = some w) : w.line = line := by
  rw [warning?] at h
  split at h
  · obtain rfl := Option.some.inj h
    rfl
  · obtain rfl := Option.some.inj h
    rfl
  · simp at h
  · simp at h

theorem step_of_warning? {w : Warning} (h : line.warning? = some w) (s : Service) :
    s.step line = .ok (s, some w) := by
  rw [warning?] at h
  rw [Service.step]
  split at h
  · rename_i rule hread
    rw [hread, ← h]
  · rename_i hread
    rw [hread, ← h]
  · simp at h
  · simp at h

/-- A line that is a directive leaves no warning. -/
theorem step_of_directive? {d : Directive} (h : line.directive? = some d) (s : Service) :
    s.step line = .ok (d.apply s, none) := by
  rw [directive?] at h
  rw [Service.step]
  cases hread : Directive.read line.text with
  | effective d' =>
    rw [hread] at h
    obtain rfl : d' = d := Option.some.inj h
    rfl
  | malformed rule => simp [hread, Reading.directive?] at h
  | unrecognized => simp [hread, Reading.directive?] at h
  | unsupported value => simp [hread, Reading.directive?] at h

/-- **Dropped or effective.** A line that is not refused leaves a warning or is a directive. -/
theorem dropped_or_effective (h : line.refusal? = none) :
    (∃ w, line.warning? = some w ∧ line.directive? = none) ∨
      (line.warning? = none ∧ ∃ d, line.directive? = some d) := by
  rw [refusal?, Directive.refusal?] at h
  rw [warning?, directive?]
  cases hread : Directive.read line.text with
  | effective d => exact .inr ⟨rfl, d, rfl⟩
  | malformed rule => exact .inl ⟨_, rfl, rfl⟩
  | unrecognized => exact .inl ⟨_, rfl, rfl⟩
  | unsupported value => simp [hread] at h

/-- The lines that have a warning, in their order. -/
theorem map_line_warnings (lines : List Line) :
    (lines.filterMap warning?).map Warning.line = lines.filter (·.warning?.isSome) := by
  induction lines with
  | nil => rfl
  | cons line lines ih =>
    cases hw : line.warning? with
    | none => rw [filterMap_cons_none hw, ih, filter_cons_of_neg (by simp [hw])]
    | some w =>
      rw [filterMap_cons_some hw, map_cons, ih, line_of_warning? hw, filter_cons_of_pos (by simp [hw])]

theorem filter_warnings {lines : List Line} (hnodup : (lines.map number).Nodup) (hline : line ∈ lines) :
    (lines.filterMap warning?).filter (·.line.number = line.number) = line.warning?.toList := by
  have hsame : (lines.filterMap warning?).filter (·.line.number = line.number) =
      (lines.filter (·.number = line.number)).filterMap warning? := by
    rw [filter_filterMap, filterMap_filter]
    refine filterMap_congr fun l _ => ?_
    cases hw : l.warning? with
    | none => simp
    | some w => simp [line_of_warning? hw, Option.filter_some]
  rw [hsame, filter_eq_singleton hnodup hline, filterMap_cons]
  cases line.warning? <;> rfl

/-- A line has a warning exactly when its number is that of a warning. -/
theorem warning?_isSome_iff {lines : List Line} (hnodup : (lines.map number).Nodup) (hline : line ∈ lines) :
    line.warning?.isSome ↔ line.number ∈ (lines.filterMap warning?).map (·.line.number) := by
  have hnumbers : (lines.filterMap warning?).map (·.line.number) =
      (lines.filter (·.warning?.isSome)).map number := by
    rw [← map_line_warnings, map_map]
    rfl
  rw [hnumbers, mem_map]
  constructor
  · intro h
    exact ⟨line, mem_filter.2 ⟨hline, h⟩, rfl⟩
  · rintro ⟨l, hl, hnumber⟩
    obtain ⟨hmem, hsome⟩ := mem_filter.1 hl
    obtain rfl := inj_on_of_nodup_map hnodup hmem hline hnumber
    exact hsome

end Line

/-- Numbers that increase do not repeat. -/
theorem nodup_numbers (source : String) : ((ofSource source).map number).Nodup :=
  pairwise_map.2 ((ofSource_increasing source).imp fun h => Int.ne_of_lt h)

/-- With the lines of all warnings emptied, the lines without a warning are left.  They are told apart by
    their numbers. -/
theorem Line.ofSource_blanked_warned (source : String) :
    ofSource (blanked (((ofSource source).filterMap warning?).map (·.line.number)) source) =
      (ofSource source).filter (·.warning?.isNone) := by
  rw [ofSource_blanked]
  refine filter_congr fun line hline => ?_
  have hiff := warning?_isSome_iff (nodup_numbers source) hline
  cases hw : line.warning? with
  | none => simpa [hw] using hiff
  | some w => simpa [hw] using hiff

/-- Without the lines that have a warning, the directives are the same. -/
theorem directivesOf_filter {lines : List Line} (h : ∀ l ∈ lines, l.refusal? = none) :
    directivesOf (lines.filter (·.warning?.isNone)) = directivesOf lines := by
  rw [directivesOf, directivesOf, filterMap_filter]
  refine filterMap_congr fun line hline => ?_
  rcases dropped_or_effective (h line hline) with ⟨w, hw, hd⟩ | ⟨hw, -⟩
  · simp [hw, hd]
  · simp [hw]

/-- **The account** that the warnings of a build give of its source. -/
structure Build.Accounts (b : Build) (source : String) : Prop where
  /-- Warnings are listed by line. -/
  increasing : b.warnings.Pairwise fun v w => v.line.number < w.line.number
  /-- Each warning shows the physical line of its number, without the blanks around it. -/
  placed : ∀ w ∈ b.warnings, ∃ i raw, (physicalLines source)[i]? = some raw ∧ Text.trim raw ≠ [] ∧
    w.line = ⟨1 + (i : Nat), String.ofList (Text.trim raw)⟩
  /-- Each physical line that is not blank has exactly one warning and changes no service, or it has none
      and its directive is applied. -/
  covered : ∀ (i : Nat) (raw : List Char), (physicalLines source)[i]? = some raw → Text.trim raw ≠ [] →
    (∃ w, b.warnings.filter (·.line.number = 1 + (i : Int)) = [w] ∧
      ∀ s : Service, s.step ⟨1 + (i : Int), String.ofList (Text.trim raw)⟩ = .ok (s, some w)) ∨
    (b.warnings.filter (·.line.number = 1 + (i : Int)) = [] ∧ ∃ d : Directive,
      ∀ s : Service, s.step ⟨1 + (i : Int), String.ofList (Text.trim raw)⟩ = .ok (d.apply s, none))
  /-- With the lines of all warnings emptied, the source is built into the same service, without a
      warning. -/
  dropped : Build.ofSource (blanked (b.warnings.map (·.line.number)) source) =
    .ok { service := b.service, warnings := [] }

/-- **Every source that is built is accounted for.** -/
theorem accounts_of_ofSource {source : String} {b : Build} (h : Build.ofSource source = .ok b) :
    b.Accounts source := by
  obtain ⟨hnone, rfl⟩ := Build.ofLines_eq_ok_iff.1 h
  refine ⟨?increasing, ?placed, ?covered, ?dropped⟩
  case increasing =>
    have hlines : (((Line.ofSource source).filterMap Line.warning?).map Warning.line).Sublist
        (Line.ofSource source) := by
      rw [Line.map_line_warnings]
      exact List.filter_sublist
    have hincreasing := (Line.ofSource_increasing source).sublist hlines
    rwa [List.pairwise_map] at hincreasing
  case placed =>
    intro w hw
    obtain ⟨line, hline, hwarning⟩ := List.mem_filterMap.1 hw
    obtain ⟨i, raw, hraw, hne, rfl⟩ := Line.mem_ofSource_iff.1 hline
    exact ⟨i, raw, hraw, hne, Line.line_of_warning? hwarning⟩
  case covered =>
    intro i raw hraw hne
    have hline : ⟨1 + (i : Int), String.ofList (Text.trim raw)⟩ ∈ Line.ofSource source :=
      Line.mem_ofSource_iff.2 ⟨i, raw, hraw, hne, rfl⟩
    have hown := Line.filter_warnings (nodup_numbers source) hline
    rcases Line.dropped_or_effective (hnone _ hline) with ⟨w, hw, -⟩ | ⟨hw, d, hd⟩
    · exact .inl ⟨w, by rw [hown, hw]; rfl, Line.step_of_warning? hw⟩
    · exact .inr ⟨by rw [hown, hw]; rfl, d, Line.step_of_directive? hd⟩
  case dropped =>
    rw [Build.ofSource, Line.ofSource_blanked_warned, Build.ofLines_eq_ok_iff]
    refine ⟨fun l hl => hnone l (List.mem_of_mem_filter hl), ?_⟩
    have hwarnings : ((Line.ofSource source).filter (·.warning?.isNone)).filterMap Line.warning? = [] := by
      rw [List.filterMap_eq_nil_iff]
      intro l hl
      simpa using (List.mem_filter.1 hl).2
    rw [hwarnings, Service.afterLines_eq_applyAll, Service.afterLines_eq_applyAll,
      directivesOf_filter hnone]

/-- A line dropped for each reason, between directives and a blank line: one that no rule claims, one
    without its argument, and one whose port is too large. -/
def threeDropped : String :=
  "speak at port 80\n hum \n\nwhisper: load environment from here\nwhisper: enable cors\n" ++
  "speak at port 9223372036854775808"

def threeDroppedBuild : Build where
  service := { port := 80, middlewares := [{ kind := .cors }] }
  warnings :=
    [ ⟨⟨2, "hum"⟩, .unrecognized, ""⟩,
      ⟨⟨4, "whisper: load environment from here"⟩, .malformed, "environment"⟩,
      ⟨⟨6, "speak at port 9223372036854775808"⟩, .malformed, "port"⟩ ]

theorem accounts_threeDropped :
    Build.ofSource threeDropped = .ok threeDroppedBuild ∧ threeDroppedBuild.Accounts threeDropped := by
  have hbuild : Build.ofSource threeDropped = .ok threeDroppedBuild := by decide +kernel
  exact ⟨hbuild, accounts_of_ofSource hbuild⟩

end ServiceCompiler
