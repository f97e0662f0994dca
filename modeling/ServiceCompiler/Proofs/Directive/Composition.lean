import ServiceCompiler.Proofs.Directive.Numbering
import ServiceCompiler.Proofs.Directive.WellFormed

namespace ServiceCompiler

open Build Line List Option
open Text (Scan)

/-!
# Building piece by piece

A source can be built piece by piece: what a text does behind a line break depends on what stands before
it only through the service built so far and the number of lines that went by.

* `Build.ofSource_append` — the build of two texts is the build of the first, continued over the lines of
  the second, further down.
* `Line.warning?_shift`, `Line.refusal?_shift` — a line further down leaves the same warning and is refused
  with the same error, further down.
* `UnsupportedValue.GivenBy` — what a refusal says, read off the text of the line: which directive, which
  word in it, and which words would have been allowed (`givenBy_of_refusal?`).
-/

/-! ### Lines further down -/

variable (k : Int)

/-- The warning further down by `k` lines. -/
def Warning.shift (k : Int) (w : Warning) : Warning := { w with line := w.line.shift k }

/-- The error further down by `k` lines. -/
def DirectiveError.shift (k : Int) (e : DirectiveError) : DirectiveError := { e with line := e.line + k }

namespace Line

theorem warning?_shift (line : Line) : (line.shift k).warning? = line.warning?.map (Warning.shift k) := by
  simp only [warning?, text_shift]
  cases Directive.read line.text <;> rfl

theorem refusal?_shift (line : Line) : (line.shift k).refusal? = line.refusal?.map (DirectiveError.shift k) := by
  simp only [refusal?, text_shift, Option.map_map]
  rfl

theorem filterMap_warning?_shift (lines : List Line) :
    (lines.map (shift k)).filterMap warning? = (lines.filterMap warning?).map (Warning.shift k) := by
  rw [filterMap_map, map_filterMap]
  exact filterMap_congr fun line _ => warning?_shift k line

theorem findSome?_refusal?_shift (lines : List Line) :
    (lines.map (shift k)).findSome? refusal? =
      (lines.findSome? refusal?).map (DirectiveError.shift k) := by
  induction lines with
  | nil => rfl
  | cons line lines ih =>
    rw [map_cons, findSome?_cons, findSome?_cons, refusal?_shift, ih]
    cases line.refusal? <;> rfl

theorem foldl_afterLine_shift (s : Service) (lines : List Line) :
    (lines.map (shift k)).foldl Service.afterLine s = lines.foldl Service.afterLine s := by
  have hline : ∀ (s : Service) (line : Line), s.afterLine (line.shift k) = s.afterLine line := by
    intro s line
    rw [Service.afterLine_eq, Service.afterLine_eq]
    rfl
  rw [foldl_map]
  simp only [hline]

end Line

/-- **A run further down** ends at the same service or is refused in the same way. -/
theorem Build.foldlM_step_shift (b : Build) (lines : List Line) :
    (lines.map (Line.shift k)).foldlM step b =
      match lines.findSome? refusal? with
      | some e => .error (e.shift k)
      | none => .ok
          { service := lines.foldl Service.afterLine b.service
            warnings := b.warnings ++ (lines.filterMap warning?).map (Warning.shift k) } := by
  rw [foldlM_step_eq, findSome?_refusal?_shift]
  cases lines.findSome? refusal? with
  | some e => rfl
  | none =>
    show Except.ok (b.afterLines _) = _
    rw [afterLines, foldl_afterLine_shift, filterMap_warning?_shift]

/-! ### Texts one after the other -/

theorem Build.ofLines_append (xs ys : List Line) :
    ofLines (xs ++ ys) = (ofLines xs).bind (ys.foldlM step) :=
  foldlM_append

/-- **Piece by piece.** Behind a line break the build goes on from what was built before. -/
theorem Build.ofSource_append (s t : String) :
    ofSource (s ++ "\n" ++ t) =
      (ofSource s).bind
        (((Line.ofSource t).map (Line.shift (1 + s.toList.count '\n'))).foldlM step) := by
  rw [ofSource, Line.ofSource_append, ofLines_append]
  rfl

/-- How the build of a text goes on behind a line break, with `k` lines before it. -/
structure Build.GoesOn (s t : String) (k : Int) : Prop where
  /-- What is refused before the line break stays refused in the same way. -/
  fails : ∀ e, ofSource s = .error e → ofSource (s ++ "\n" ++ t) = .error e
  /-- Otherwise the run goes on from the build of the first text. -/
  continues : ∀ b, ofSource s = .ok b →
    ofSource (s ++ "\n" ++ t) = ((Line.ofSource t).map (Line.shift k)).foldlM step b
  /-- Warnings are those of the first text, then those of the second, further down. -/
  warnings : ∀ b c, ofSource s = .ok b → ofSource t = .ok c →
    ∃ d, ofSource (s ++ "\n" ++ t) = .ok d ∧
      d.warnings = b.warnings ++ c.warnings.map (Warning.shift k)
  /-- What is refused in the second text is refused in the whole, further down. -/
  fails_later : ∀ b e, ofSource s = .ok b → ofSource t = .error e →
    ofSource (s ++ "\n" ++ t) = .error (e.shift k)

theorem Build.goesOn (s t : String) : GoesOn s t (1 + s.toList.count '\n') where
  fails := by
    intro e he
    rw [ofSource_append, he]
    rfl
  continues := by
    intro b hb
    rw [ofSource_append, hb]
    rfl
  warnings := by
    intro b c hb hc
    obtain ⟨hnone, rfl⟩ := ofLines_eq_ok_iff.1 hc
    have hrun := foldlM_step_shift (1 + s.toList.count '\n') b (Line.ofSource t)
    rw [findSome?_eq_none_iff.2 hnone] at hrun
    rw [ofSource_append, hb]
    exact ⟨_, hrun, rfl⟩
  fails_later := by
    intro b e hb he
    rw [ofSource_append, hb]
    show foldlM _ b _ = _
    rw [foldlM_step_shift, ofLines_eq_error_iff.1 he]

/-! ### Refusals -/

/-- The directives with a choice, and what they let choose. -/
def choices : List (String × List String) :=
  [("db type", ["mysql", "mssql"]), ("auth strategy", ["jwt"]), ("frontend framework", ["react"])]

/-- What a refusal says about a line: it names a directive with a choice, and the value is a word that
    follows the name of the directive in the line, in lower case, and none of those to choose from. -/
structure UnsupportedValue.GivenBy (v : UnsupportedValue) (line : List Char) : Prop where
  choice : (v.directive, v.allowed) ∈ choices
  notMem : v.value ∉ v.allowed
  word : ∃ word, IsPlainWord word ∧ v.value = Text.lowerAscii word ∧
    (v.directive ++ " " ++ word).toList <:+: line

/-- What the rule refuses, if anything, is given by the line. -/
def Rule.RefusesChoices (rule : Rule) : Prop :=
  ∀ line v, rule.arguments line = some (.error v) → v.GivenBy line

theorem Rule.refusesChoices_fixed (name lead : String) (d : Directive) : (Rule.fixed name lead d).RefusesChoices := by
  intro line v h
  simp [Rule.fixed] at h

theorem Rule.refusesChoices_scanning (name lead : String) (scan : Scan Directive) :
    (Rule.scanning name lead scan).RefusesChoices := by
  intro line v h
  obtain ⟨d, -, heq⟩ := map_eq_some_iff.1 h
  simp at heq

theorem Rule.refusesChoices_marked {marker : String} {rule : Rule} (h : rule.RefusesChoices) :
    (rule.marked marker).RefusesChoices := h

/-- A word behind the name of a directive is read where both stand in the line. -/
theorem Rule.infix_of_choosing {name word : String} {line : List Char}
    (h : Scan.anywhere? (do whisper; Text.literal (name ++ " "); plainWord) line = some word) :
    (name ++ " " ++ word).toList <:+: line := by
  obtain ⟨before, here, rest, rfl, hread⟩ := Text.exists_place_of_anywhere? h
  -- The scanner is opened from its start: opening word, blanks, name, word.
  obtain ⟨⟨_, afterWhisper⟩, hwhisper, hread⟩ := bind_eq_some_iff.1 hread
  obtain ⟨⟨_, afterName⟩, hname, hword⟩ := bind_eq_some_iff.1 hread
  obtain ⟨⟨_, afterLead⟩, hlead, hskip⟩ := bind_eq_some_iff.1 hwhisper
  have hsuffix : afterWhisper <:+ before ++ here := by
    rw [Text.eq_append_of_literal hlead]
    exact (Text.isSuffix_of_skip hskip).trans
      ((suffix_append _ afterLead).trans (suffix_append before _))
  have hprefix : (name ++ " " ++ word).toList <+: afterWhisper := by
    rw [Text.eq_append_of_literal hname, Text.eq_append_of_run1 hword, String.toList_append, ← append_assoc]
    exact prefix_append _ rest
  exact hprefix.isInfix.trans hsuffix.isInfix

theorem Rule.refusesChoices_choosing {name : String} {allowed : List String}
    (hchoice : (name, allowed) ∈ choices) (directive : String → Directive) :
    (Rule.choosing name allowed directive).RefusesChoices := by
  intro line v h
  obtain ⟨word, hword, heq⟩ := map_eq_some_iff.1 h
  dsimp only at heq
  split at heq
  · simp at heq
  · rename_i hallowed
    obtain rfl := Except.error.inj heq
    have hplain : IsPlainWord word :=
      (Text.Yields.after (.after yields_plainWord)).anywhere? hword
    exact ⟨hchoice, by simpa using hallowed, word, hplain, rfl, Rule.infix_of_choosing hword⟩

/-- **Every refusal is given by the line**, whichever rule makes it. -/
theorem Rule.all_refusesChoices : ∀ rule ∈ Rule.all, rule.RefusesChoices := by
  simp only [Rule.all, forall_mem_cons]
  refine ⟨?essence, ?port, ?json, ?environment, ?cors, ?dialect, ?connect, ?collection, ?logger,
    ?static, ?enable, ?strategy, ?guard, ?framework, ?package, ?list, ?get, ?insert, ?migration,
    forall_mem_nil _⟩
  case dialect => exact refusesChoices_choosing (by decide) _
  case strategy => exact refusesChoices_choosing (by decide) _
  case framework => exact refusesChoices_choosing (by decide) _
  case port =>
    intro line v h
    obtain ⟨d, -, heq⟩ := map_eq_some_iff.1 h
    simp at heq
  case essence | json | cors | logger | enable => exact refusesChoices_fixed _ _ _
  case list | get | insert => exact refusesChoices_marked (refusesChoices_scanning _ _ _)
  case environment | connect | collection | static | guard | package | migration =>
    exact refusesChoices_scanning _ _ _

theorem givenBy_of_refusal? {text : String} {v : UnsupportedValue}
    (h : Directive.refusal? text = some v) : v.GivenBy text.toList := by
  rw [Directive.refusal?, Directive.read] at h
  split at h
  · rename_i value hread
    obtain rfl := some.inj h
    split at hread
    · simp at hread
    · rename_i rule hrule
      split at hread
      · simp at hread
      · simp at hread
      · rename_i value' harguments
        obtain rfl := Reading.unsupported.inj hread
        exact Rule.all_refusesChoices rule (mem_of_find?_eq_some hrule) _ _ harguments
  all_goals simp at h

theorem Line.refusal?_eq_some_iff {line : Line} {e : DirectiveError} :
    line.refusal? = some e ↔
      Directive.refusal? line.text = some e.toUnsupportedValue ∧ e.line = line.number := by
  rw [refusal?, map_eq_some_iff]
  constructor
  · rintro ⟨v, hv, rfl⟩
    exact ⟨hv, rfl⟩
  · rintro ⟨hv, hline⟩
    exact ⟨e.toUnsupportedValue, hv, by rw [← hline]⟩

/-- The first line that is refused, with no other one before it. -/
def FirstRefused (lines : List Line) (e : DirectiveError) : Prop :=
  ∃ before line after, lines = before ++ line :: after ∧
    (∀ l ∈ before, Directive.refusal? l.text = none) ∧
    Directive.refusal? line.text = some e.toUnsupportedValue ∧ e.line = line.number

theorem findSome?_refusal?_eq_some_iff {lines : List Line} {e : DirectiveError} :
    lines.findSome? refusal? = some e ↔ FirstRefused lines e := by
  have hnone : ∀ l : Line, l.refusal? = none ↔ Directive.refusal? l.text = none := by
    intro l
    rw [refusal?, map_eq_none_iff]
  rw [findSome?_eq_some_iff, FirstRefused]
  simp only [refusal?_eq_some_iff, hnone]
  constructor
  · rintro ⟨before, line, after, hlines, hsome, hbefore⟩
    exact ⟨before, line, after, hlines, hbefore, hsome⟩
  · rintro ⟨before, line, after, hlines, hbefore, hsome⟩
    exact ⟨before, line, after, hlines, hsome, hbefore⟩

/-- **Building is compositional, and the first refusal decides.**  Behind a line break a build goes on as
    `Build.GoesOn` says.  A step fails by the text of its line alone, whatever the service is, and with the
    value that the text gives.  A build fails exactly when some line is refused, with the error of the first
    such line. -/
theorem goesOn_and_firstRefused :
    (∀ s t : String, Build.GoesOn s t (1 + s.toList.count '\n')) ∧
    (∀ (s : Service) (line : Line) (e : DirectiveError), s.step line = .error e ↔
      Directive.refusal? line.text = some e.toUnsupportedValue ∧ e.line = line.number) ∧
    (∀ (text : String) (v : UnsupportedValue), Directive.refusal? text = some v →
      v.GivenBy text.toList) ∧
    ∀ source : String,
      ((∃ e, Build.ofSource source = .error e) ↔
        ∃ line ∈ Line.ofSource source, Directive.refusal? line.text ≠ none) ∧
      ∀ e, Build.ofSource source = .error e ↔ FirstRefused (Line.ofSource source) e := by
  have hfirst : ∀ source e, Build.ofSource source = .error e ↔ FirstRefused (Line.ofSource source) e :=
    fun source e => Build.ofLines_eq_error_iff.trans findSome?_refusal?_eq_some_iff
  refine ⟨Build.goesOn, fun s line e => ?_, fun text v => givenBy_of_refusal?, fun source => ⟨?_, hfirst source⟩⟩
  · exact Service.step_eq_error_iff.trans Line.refusal?_eq_some_iff
  · simp only [Build.ofSource, Build.ofLines_eq_error_iff, ← Option.isSome_iff_exists,
      List.findSome?_isSome_iff, Line.refusal?, Option.isSome_map, Option.ne_none_iff_isSome]

/-- The refusal of a database on the third line. -/
def oracleRefused : DirectiveError where
  directive := "db type"
  value := "oracle"
  allowed := ["mysql", "mssql"]
  line := 3

theorem goesOn_hum_firstRefused_oracle :
    (∃ d, Build.ofSource ("hum" ++ "\n" ++ " \nhum again") = .ok d ∧
      d.warnings = [⟨⟨1, "hum"⟩, .unrecognized, ""⟩, ⟨⟨3, "hum again"⟩, .unrecognized, ""⟩]) ∧
    FirstRefused (Line.ofSource "hum\n\nwhisper: db type Oracle") oracleRefused ∧
    oracleRefused.GivenBy "whisper: db type Oracle".toList := by
  obtain ⟨hgoesOn, -, hgiven, hfirst⟩ := goesOn_and_firstRefused
  refine ⟨?_, ?_, ?_⟩
  · exact (hgoesOn "hum" " \nhum again").warnings
      { warnings := [⟨⟨1, "hum"⟩, .unrecognized, ""⟩] }
      { warnings := [⟨⟨2, "hum again"⟩, .unrecognized, ""⟩] } (by decide +kernel) (by decide +kernel)
  · exact ((hfirst "hum\n\nwhisper: db type Oracle").2 oracleRefused).1 (by decide +kernel)
  · exact hgiven "whisper: db type Oracle" oracleRefused.toUnsupportedValue (by decide +kernel)

end ServiceCompiler
