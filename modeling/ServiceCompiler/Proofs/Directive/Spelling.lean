import ServiceCompiler.Proofs.Directive.Numbering
import ServiceCompiler.Proofs.Directive.WellFormed

namespace ServiceCompiler

open List Text Directive Field Option

open Text (Scan Yields literal skip run1)

/-!
# Texts that a source spells out

The texts that a source may choose freely, such as a path of files or the type of a column, hold characters
of the source and spaces only.

* `Text.Keeps` — what a scanner reads off a text of a class of characters, and that it leaves such a text.
* `Service.Spelled` — the invariant, and `Directive.Spelled` what a directive has to be in order to keep it.
* `Rule.all_keep` — every directive read off a line of the class is so.
* `spelled_ofSource` — hence every service that a source builds.
-/

/-- A text of a class of characters. -/
def Text.IsMadeOf (p : Char → Prop) (s : String) : Prop := ∀ c ∈ s.toList, p c

open Text (IsMadeOf)

namespace Text

variable {α β : Type} {p : Char → Prop} {s : Scan α} {P : α → Prop}

/-- Of a text of the class, the scanner reads values that satisfy `P` and leaves a text of the class. -/
def Keeps (p : Char → Prop) (s : Scan α) (P : α → Prop) : Prop :=
  ∀ cs a rest, (∀ c ∈ cs, p c) → s cs = some (a, rest) → P a ∧ ∀ c ∈ rest, p c

namespace Keeps

theorem pure {a : α} (h : P a) : Keeps p (Pure.pure a : Scan α) P := by
  intro cs b rest hcs hb
  obtain ⟨rfl, rfl⟩ := Prod.mk.inj (some.inj hb)
  exact ⟨h, hcs⟩

theorem bind {f : α → Scan β} {R : β → Prop} (hs : Keeps p s P) (hf : ∀ a, P a → Keeps p (f a) R) :
    Keeps p (s >>= f) R := by
  intro cs b rest hcs hb
  obtain ⟨⟨a, middle⟩, ha, hfa⟩ := bind_eq_some_iff.1 hb
  obtain ⟨hvalue, hmiddle⟩ := hs cs a middle hcs ha
  exact hf a hvalue middle b rest hmiddle hfa

theorem after {t : Scan β} {R : β → Prop} (hs : Keeps p s P) (ht : Keeps p t R) : Keeps p (s >>= fun _ => t) R :=
  bind hs fun _ _ => ht

/-- What is found at some place of a text of the class. -/
theorem anywhere? (h : Keeps p s P) {cs : List Char} {a : α} (hcs : ∀ c ∈ cs, p c)
    (ha : s.anywhere? cs = some a) : P a := by
  obtain ⟨before, here, rest, rfl, hhere⟩ := exists_place_of_anywhere? ha
  exact (h here a rest (fun c hc => hcs c (mem_append_right _ hc)) hhere).1

end Keeps

theorem keeps_literal (s : String) : Keeps p (literal s) fun _ => True := by
  intro cs u rest hcs h
  obtain rfl := eq_append_of_literal h
  exact ⟨trivial, fun c hc => hcs c (mem_append_right _ hc)⟩

theorem keeps_skip (q : Char → Bool) : Keeps p (skip q) fun _ => True := by
  intro cs u rest hcs h
  exact ⟨trivial, fun c hc => hcs c ((isSuffix_of_skip h).subset hc)⟩

theorem keeps_run1 (q : Char → Bool) : Keeps p (run1 q) (IsMadeOf p) := by
  intro cs w rest hcs h
  obtain rfl := eq_append_of_run1 h
  exact ⟨fun c hc => hcs c (mem_append_left _ hc), fun c hc => hcs c (mem_append_right _ hc)⟩

theorem keeps_ledBy (d : Char) (q : Char → Bool) : Keeps p (ledBy d q) fun _ => True := by
  intro cs w rest hcs h
  cases cs with
  | nil => simp [ledBy] at h
  | cons e cs =>
    rw [ledBy] at h
    split at h
    · obtain ⟨-, rfl⟩ := Prod.mk.inj (some.inj h)
      refine ⟨trivial, fun c hc => hcs c (mem_cons_of_mem e ?_)⟩
      exact (dropWhile_suffix q).subset hc
    · simp at h

end Text

/-! ### The invariant -/

/-- The kind of a middleware is a known one, and its argument is of the class. -/
structure Middleware.Spelled (p : Char → Prop) (m : Middleware) : Prop where
  kind : m.kind = .json ∨ m.kind = .cors ∨ m.kind = .logger ∨ m.kind = .static
  arg : IsMadeOf p m.arg

structure Migration.Spelled (p : Char → Prop) (m : Migration) : Prop where
  table : IsMadeOf p m.table
  columns : ∀ f ∈ m.columns, IsMadeOf p f.name ∧ IsMadeOf p f.type

/-- **The invariant**: the texts that a source may choose freely are of the class. -/
structure Service.Spelled (p : Char → Prop) (s : Service) : Prop where
  middlewares : ∀ m ∈ s.middlewares, m.Spelled p
  envFile : IsMadeOf p s.envFile
  url : IsMadeOf p s.database.url
  migrations : ∀ m ∈ s.migrations, m.Spelled p
  bodyFields : ∀ r ∈ s.routes, ∀ f ∈ r.bodyFields, IsMadeOf p f
  packages : ∀ name ∈ s.client.packages, IsMadeOf p name

/-- What a directive has to be in order to keep the invariant. -/
def Directive.Spelled (p : Char → Prop) : Directive → Prop
  | .middleware entry => entry.Spelled p
  | .environment text | .connect text | .package text => IsMadeOf p text
  | .route endpoint => ∀ f ∈ endpoint.bodyFields, IsMadeOf p f
  | .migration creation => creation.Spelled p
  | .express | .port _ | .dialect _ | .collection _ | .authEnable | .authStrategy _ | .guard _ | .framework _ =>
    True

section Class

variable {p : Char → Prop}

/-! ### Column lists and names in directives -/

theorem mem_of_mem_topSegments {depth : Nat} {cs segment : List Char} (h : segment ∈ topSegments depth cs) :
    ∀ c ∈ segment, c ∈ cs := by
  induction cs generalizing depth segment with
  | nil =>
    rw [topSegments, mem_singleton] at h
    simp [h]
  | cons d cs ih =>
    intro c hc
    rw [topSegments] at h
    split at h
    · rcases mem_cons.1 h with rfl | h
      · simp at hc
      · exact mem_cons_of_mem d (ih h c hc)
    · dsimp only at h
      split at h
      · rw [mem_singleton] at h
        subst h
        exact mem_cons.2 (.inl (mem_singleton.1 hc))
      · rename_i first others heq
        rcases mem_cons.1 h with rfl | h
        · rcases mem_cons.1 hc with rfl | hc
          · exact mem_cons_self
          · exact mem_cons_of_mem d (ih (heq ▸ mem_cons_self) c hc)
        · exact mem_cons_of_mem d (ih (heq ▸ mem_cons_of_mem first h) c hc)

theorem isMadeOf_splitFields {s : String} (hs : IsMadeOf p s) : ∀ segment ∈ splitFields s, IsMadeOf p segment := by
  intro segment hsegment
  have hmem : segment ∈ (topSegments 0 s.toList).map fun segment => String.ofList (trim segment) := by
    rw [splitFields] at hsegment
    split at hsegment
    · exact (dropLast_sublist _).subset hsegment
    · exact hsegment
  obtain ⟨raw, hraw, rfl⟩ := mem_map.1 hmem
  intro c hc
  rw [String.toList_ofList] at hc
  exact hs c (mem_of_mem_topSegments hraw c (mem_of_mem_trim hc))

theorem Field.isMadeOf_split {text : List Char} (h : ∀ c ∈ text, p c) :
    (∀ c ∈ (split text).1, p c) ∧ ∀ c ∈ (split text).2, p c := by
  have hcut : ∀ {mark : Char} {parts : List Char × List Char}, cutAt? mark text = some parts →
      (∀ c ∈ parts.1, p c) ∧ ∀ c ∈ parts.2, p c := by
    intro mark parts hparts
    have heq := (eq_append_of_cutAt? hparts).1
    refine ⟨fun c hc => h c ?_, fun c hc => h c ?_⟩
    · exact heq ▸ mem_append_left _ hc
    · exact heq ▸ mem_append_right _ (mem_cons_of_mem mark hc)
  rw [split]
  split
  · rename_i hcolon
    exact hcut hcolon
  · cases hspace : cutAt? ' ' text with
    | none => exact ⟨h, by simp⟩
    | some parts => exact hcut hspace

theorem isMadeOf_intercalate {words : List String} (hspace : p ' ') (h : ∀ w ∈ words, IsMadeOf p w) :
    IsMadeOf p (" ".intercalate words) := by
  rw [IsMadeOf, String.toList_intercalate]
  induction words with
  | nil => simp
  | cons w words ih =>
    obtain ⟨hw, hwords⟩ := forall_mem_cons.1 h
    cases words with
    | nil =>
      rw [map_singleton, intercalate_singleton]
      exact hw
    | cons v words =>
      rw [map_cons, map_cons, intercalate_cons_cons]
      intro c hc
      rcases mem_append.1 hc with hc | hc
      · rcases mem_append.1 hc with hc | hc
        · exact hw c hc
        · exact mem_singleton.1 hc ▸ hspace
      · exact ih hwords c hc

theorem Field.isMadeOf_ofText? {s : String} {f : Field} (hspace : p ' ') (hs : IsMadeOf p s)
    (h : ofText? s = some f) : IsMadeOf p f.name ∧ IsMadeOf p f.type := by
  have htext : ∀ c ∈ trim s.toList, p c := fun c hc => hs c (mem_of_mem_trim hc)
  have hparts : (∀ c ∈ (split (trim s.toList)).1, p c) ∧
      ∀ c ∈ (split (trim s.toList)).2, p c := isMadeOf_split htext
  rw [ofText?_eq] at h
  dsimp only at h
  generalize split (trim s.toList) = parts at h hparts
  split at h
  · simp at h
  · obtain rfl := some.inj h
    refine ⟨?_, ?_⟩
    · intro c hc
      rw [ofWords, String.toList_ofList] at hc
      exact hparts.1 c (mem_of_mem_trim hc)
    · refine isMadeOf_intercalate hspace fun w hw => ?_
      obtain ⟨word, hword, rfl⟩ := mem_map.1 (mem_filter.1 hw).1
      intro c hc
      rw [String.toList_ofList] at hc
      exact hparts.2 c ((of_mem_runs hword).2 c hc).2

theorem isMadeOf_tableOfName {name : String} (h : IsMadeOf p name) : IsMadeOf p (tableOfName name) := by
  rw [tableOfName]
  split
  · exact h
  · exact h
  · rename_i table _ hstrip
    obtain ⟨rest, hlead, htail⟩ := bind_eq_some_iff.1 hstrip
    obtain ⟨reversed, hrev, rfl⟩ := map_eq_some_iff.1 htail
    have hrest : rest.reverse = "_table".toList.reverse ++ reversed := stripLead?_eq_some_iff.1 hrev
    intro c hc
    rw [String.toList_ofList, mem_reverse] at hc
    apply h c
    rw [stripLead?_eq_some_iff.1 hlead]
    refine mem_append_right _ (mem_reverse.1 ?_)
    rw [hrest]
    exact mem_append_right _ hc

theorem isMadeOf_bodyFieldsOfText {s : String} (h : IsMadeOf p s) : ∀ f ∈ bodyFieldsOfText s, IsMadeOf p f := by
  intro f hf
  obtain ⟨piece, hpiece, rfl⟩ := mem_map.1 (mem_filter.1 hf).1
  intro c hc
  rw [String.toList_ofList] at hc
  exact h c (of_mem_splitOn hpiece c (mem_of_mem_trim hc)).1

/-! ### What the rules read -/

open Text (keeps_literal keeps_skip keeps_run1 keeps_ledBy)

theorem keeps_whisper : Text.Keeps p whisper fun _ => True := (keeps_literal _).after (keeps_skip _)

theorem keeps_quotedText : Text.Keeps p quotedText (IsMadeOf p) :=
  (keeps_literal _).after ((keeps_run1 _).bind fun _ h => (keeps_literal _).after (.pure h))

theorem keeps_quotedWord : Text.Keeps p quotedWord fun _ => True :=
  (keeps_literal _).after ((keeps_run1 _).bind fun _ _ => (keeps_literal _).after (.pure trivial))

theorem keeps_columnList (q : Char → Bool) : Text.Keeps p (columnList q) (IsMadeOf p) :=
  (keeps_literal _).after ((keeps_run1 _).bind fun _ h => (keeps_literal _).after (.pure h))

theorem keeps_offerScan (words : String) (action : Action) : Text.Keeps p (offerScan words action) (Spelled p) :=
  (keeps_literal _).after ((keeps_ledBy _ _).bind fun _ _ => (keeps_literal _).after
    (keeps_quotedWord.bind fun _ _ => .pure (forall_mem_nil _)))

theorem keeps_insertRouteScan : Text.Keeps p insertRouteScan (Spelled p) := by
  refine (keeps_literal _).after ((keeps_ledBy _ _).bind fun path _ => (keeps_literal _).after
    ((keeps_columnList _).bind fun body hbody => (keeps_literal _).after (keeps_quotedWord.bind fun collection _ =>
      (keeps_literal _).after (.pure ?_))))
  exact isMadeOf_bodyFieldsOfText hbody

theorem keeps_migrationScan (hspace : p ' ') : Text.Keeps p migrationScan (Spelled p) := by
  refine keeps_whisper.after ((keeps_literal _).after (keeps_quotedText.bind fun name hname =>
    (keeps_literal _).after ((keeps_columnList _).bind fun list hlist => .pure ?_)))
  refine ⟨isMadeOf_tableOfName hname, ?_⟩
  intro f hf
  simp only [Migration.columns] at hf
  split at hf
  · simp at hf
  · obtain ⟨segment, hsegment, hf⟩ := mem_filterMap.1 hf
    exact isMadeOf_ofText? hspace (isMadeOf_splitFields hlist segment hsegment) hf

/-- Every directive that the rule reads off a line of the class is spelled in the class. -/
def Rule.Keeps (p : Char → Prop) (rule : Rule) : Prop :=
  ∀ line d, (∀ c ∈ line, p c) → rule.arguments line = some (.ok d) → d.Spelled p

namespace Rule

theorem keeps_fixed {name lead : String} {d : Directive} (h : d.Spelled p) : (Rule.fixed name lead d).Keeps p := by
  intro line d' _ hd
  obtain rfl : d = d' := by simpa [Rule.fixed] using hd
  exact h

theorem keeps_scanning {name lead : String} {scan : Scan Directive} (h : Text.Keeps p scan (Spelled p)) :
    (Rule.scanning name lead scan).Keeps p := by
  intro line d hline hd
  obtain ⟨d', hd', heq⟩ := map_eq_some_iff.1 hd
  obtain rfl : d' = d := by simpa using heq
  exact h.anywhere? hline hd'

theorem keeps_marked {marker : String} {rule : Rule} (h : rule.Keeps p) : (rule.marked marker).Keeps p := h

theorem keeps_choosing {name : String} {allowed : List String} {directive : String → Directive}
    (h : ∀ value, (directive value).Spelled p) : (Rule.choosing name allowed directive).Keeps p := by
  intro line d _ hd
  obtain ⟨word, -, heq⟩ := map_eq_some_iff.1 hd
  dsimp only at heq
  split at heq
  · obtain rfl : directive (lowerAscii word) = d := by simpa using heq
    exact h _
  · simp at heq

/-- **Every rule keeps the class**, in the order of the table. -/
theorem all_keep (hspace : p ' ') : ∀ rule ∈ Rule.all, rule.Keeps p := by
  have hnothing : IsMadeOf p "" := by simp [IsMadeOf]
  simp only [Rule.all, forall_mem_cons]
  refine ⟨?essence, ?port, ?json, ?environment, ?cors, ?dialect, ?connect, ?collection, ?logger,
    ?static, ?enable, ?strategy, ?guard, ?framework, ?package, ?list, ?get, ?insert, ?migration,
    forall_mem_nil _⟩
  case essence => exact keeps_fixed trivial
  case port =>
    intro line d _ hd
    obtain ⟨d', hd', heq⟩ := map_eq_some_iff.1 hd
    obtain rfl : d' = d := by simpa using heq
    have hyields : Yields portScan (Spelled p) := by
      refine .after (.bind (.trivial _) fun _ _ => .bind (.trivial _) fun number _ => ?_)
      split
      · exact .pure trivial
      · exact .failure
    exact hyields.atStart? hd'
  case json => exact keeps_fixed ⟨.inl rfl, hnothing⟩
  case environment =>
    exact keeps_scanning (keeps_whisper.after ((keeps_literal _).after (keeps_quotedText.bind fun _ h => .pure h)))
  case cors => exact keeps_fixed ⟨.inr (.inl rfl), hnothing⟩
  case dialect => exact keeps_choosing fun _ => trivial
  case connect => exact keeps_scanning ((keeps_literal _).after (keeps_quotedText.bind fun _ h => .pure h))
  case collection =>
    exact keeps_scanning ((keeps_literal _).after (keeps_quotedWord.bind fun _ _ => .pure trivial))
  case logger => exact keeps_fixed ⟨.inr (.inr (.inl rfl)), hnothing⟩
  case static =>
    exact keeps_scanning (keeps_whisper.after ((keeps_literal _).after (keeps_quotedText.bind fun _ h =>
      .pure ⟨.inr (.inr (.inr rfl)), h⟩)))
  case enable => exact keeps_fixed trivial
  case strategy => exact keeps_choosing fun _ => trivial
  case guard =>
    exact keeps_scanning (keeps_whisper.after ((keeps_literal _).after ((keeps_ledBy _ _).bind fun _ _ =>
      (keeps_literal _).after (.pure trivial))))
  case framework => exact keeps_choosing fun _ => trivial
  case package =>
    exact keeps_scanning (keeps_whisper.after ((keeps_literal _).after ((keeps_run1 _).bind fun _ h => .pure h)))
  case list | get => exact keeps_marked (keeps_scanning (keeps_offerScan _ _))
  case insert => exact keeps_marked (keeps_scanning keeps_insertRouteScan)
  case migration => exact keeps_scanning (keeps_migrationScan hspace)

end Rule

theorem read_spelled (hspace : p ' ') {line : Line} {d : Directive} (hline : IsMadeOf p line.text)
    (h : line.directive? = some d) : d.Spelled p := by
  rw [Line.directive?, Directive.read] at h
  split at h
  · simp [Reading.directive?] at h
  · rename_i rule hrule
    split at h
    · simp [Reading.directive?] at h
    · rename_i d' harguments
      obtain rfl : d' = d := by simpa [Reading.directive?] using h
      exact Rule.all_keep hspace rule (mem_of_find?_eq_some hrule) _ _ hline harguments
    · simp [Reading.directive?] at h

/-! ### Steps and runs -/

/-- **The step.** -/
theorem Directive.apply_spelled {d : Directive} (hd : d.Spelled p) {s : Service} (hs : s.Spelled p) :
    (d.apply s).Spelled p := by
  cases d with
  | middleware entry => exact { hs with middlewares := forall_mem_concat hs.middlewares hd }
  | environment file => exact { hs with envFile := hd }
  | connect url => exact { hs with url := hd }
  | framework name => exact { hs with packages := hs.packages }
  | package name => exact { hs with packages := forall_mem_concat hs.packages hd }
  | route endpoint => exact { hs with bodyFields := forall_mem_concat hs.bodyFields hd }
  | migration creation => exact { hs with migrations := forall_mem_concat hs.migrations hd }
  | _ => exact { hs with }

theorem spelled_default : Service.Spelled p {} where
  middlewares := by simp
  envFile := by simp [IsMadeOf]
  url := by simp [IsMadeOf]
  migrations := by simp
  bodyFields := by simp
  packages := by simp [Service.client]

/-- **The run.** The invariant holds after every list of lines of the class. -/
theorem spelled_afterLines (hspace : p ' ') {lines : List Line} (h : ∀ line ∈ lines, IsMadeOf p line.text) :
    (Service.afterLines lines).Spelled p := by
  induction lines using reverseRecOn with
  | nil => exact spelled_default
  | append_singleton lines line ih =>
    have hbefore := ih fun l hl => h l (mem_append_left _ hl)
    rw [Service.afterLines, foldl_append]
    show ((Service.afterLines lines).afterLine line).Spelled p
    rw [Service.afterLine_eq]
    cases hd : line.directive? with
    | none => exact hbefore
    | some d =>
      exact apply_spelled (read_spelled hspace (h line (by simp)) hd) hbefore

/-- **The texts of a service are spelled with the characters of its source.**  Line breaks are not among
    them. -/
theorem spelled_ofSource (hspace : p ' ') {source : String} {b : Build} (h : Build.ofSource source = .ok b)
    (hsource : ∀ c ∈ source.toList, c ≠ '\n' → p c) : b.service.Spelled p := by
  rw [Build.service_ofLines h]
  refine spelled_afterLines hspace fun line hline => ?_
  obtain ⟨i, raw, hraw, -, rfl⟩ := Line.mem_ofSource_iff.1 hline
  intro c hc
  rw [String.toList_ofList] at hc
  obtain ⟨hmem, hne⟩ := of_mem_splitOn (mem_of_getElem? hraw) c (mem_of_mem_trim hc)
  exact hsource c hmem hne

end Class

end ServiceCompiler
