import Mathlib.Data.List.Infix
import ServiceCompiler.Proofs.Directive.RouteText
import ServiceCompiler.Proofs.Naming.File

namespace ServiceCompiler

open List Text Field

open Text (ReadsOff readsOff_literal stops_append)

/-!
# Migrations, as they are written

A column is written as its name, a colon, its type and its marks, and a migration as the list of its columns in
braces.  A type may hold commas inside parentheses.  That the list is cut apart at the right places rests on one fact
about the cut: its depth is the number of parentheses opened less the number closed (`topSegments_append`).

* `IsNested` — parentheses are balanced, and commas stand inside of them only.
* `topSegments_intercalate` — a list of such texts is cut apart into them.
* `Field.ofSegment?_text` — a column is read as it is written, and hence a list of columns is (`fieldsOfText_texts`).
* `step_of_migrationText` — a step at such a line adds the migration and does nothing else, whatever the service is.
-/

/-! ### Commas outside parentheses -/

/-- Every parenthesis is closed, none is closed that is not open, and every comma stands inside of one. -/
def IsNested (cs : List Char) : Prop :=
  cs.count ')' = cs.count '(' ∧
    ∀ front ∈ cs.inits, front.count ')' ≤ front.count '(' ∧ (front ++ [','] <+: cs → front.count ')' < front.count '(')

instance (cs : List Char) : Decidable (IsNested cs) := inferInstanceAs (Decidable (_ ∧ _))

/-- The depth behind a character. -/
def nextDepth (depth : Nat) (c : Char) : Nat :=
  if c = '(' then depth + 1 else if c = ')' then depth - 1 else depth

theorem topSegments_ne_nil (depth : Nat) (cs : List Char) : topSegments depth cs ≠ [] := by
  cases cs with
  | nil => simp [topSegments]
  | cons c cs =>
    rw [topSegments]
    split
    · simp
    · dsimp only
      split <;> simp

/-- A character that is no comma, or one inside parentheses, belongs to the first segment. -/
theorem topSegments_cons {depth : Nat} {c : Char} (h : ¬ (c = ',' ∧ depth = 0)) (cs : List Char) :
    topSegments depth (c :: cs) = (topSegments (nextDepth depth c) cs).modifyHead (c :: ·) := by
  rw [topSegments, if_neg h]
  dsimp only
  rw [← nextDepth]
  cases hsegments : topSegments (nextDepth depth c) cs with
  | nil => exact absurd hsegments (topSegments_ne_nil _ cs)
  | cons segment segments => rfl

/-- The depth counts the open parentheses, as long as none is closed too much. -/
theorem nextDepth_add_count {depth : Nat} {c : Char} (h : [c].count ')' ≤ depth + [c].count '(') :
    nextDepth depth c + [c].count ')' = depth + [c].count '(' := by
  rw [nextDepth]
  split
  · rename_i hc
    subst hc
    rfl
  · rename_i hopen
    split
    · rename_i hc
      subst hc
      have hpos : 1 ≤ depth := h
      show depth - 1 + 1 = depth
      omega
    · rename_i hclose
      rw [count_singleton, count_singleton, if_neg (by simpa using hclose), if_neg (by simpa using hopen)]

/-- **The cut keeps count.** A text without a comma outside parentheses is the beginning of one segment, and the depth
    behind it is the one before it, plus the parentheses that it opens and less those that it closes. -/
theorem topSegments_append {as : List Char} {depth : Nat}
    (hclosed : ∀ front, front <+: as → front.count ')' ≤ depth + front.count '(')
    (hcomma : ∀ front, front ++ [','] <+: as → front.count ')' < depth + front.count '(') (bs : List Char) :
    topSegments depth (as ++ bs) =
      (topSegments (depth + as.count '(' - as.count ')') bs).modifyHead (as ++ ·) := by
  -- On the text, for every depth: each character moves the depth, and the bounds on the beginnings of the text with it.
  induction as generalizing depth with
  | nil => exact (congrFun modifyHead_id _).symm
  | cons c cs ih =>
    have hinside : ¬ (c = ',' ∧ depth = 0) := by
      rintro ⟨rfl, rfl⟩
      exact absurd (hcomma [] (prefix_append [','] cs)) (by simp)
    have hdepth := nextDepth_add_count (hclosed [c] (prefix_append [c] cs))
    have hcount : ∀ (d : Char) (front : List Char), (c :: front).count d = [c].count d + front.count d :=
      fun d front => (count_append : ([c] ++ front).count d = _)
    have hbehind : nextDepth depth c + cs.count '(' - cs.count ')' =
        depth + (c :: cs).count '(' - (c :: cs).count ')' := by
      rw [hcount '(' cs, hcount ')' cs]
      omega
    rw [cons_append, topSegments_cons hinside, ih, modifyHead_modifyHead, hbehind]
    · rfl
    · intro front hfront
      have := hclosed (c :: front) (cons_prefix_cons.2 ⟨rfl, hfront⟩)
      rw [hcount ')' front, hcount '(' front] at this
      omega
    · intro front hfront
      have := hcomma (c :: front) (cons_prefix_cons.2 ⟨rfl, hfront⟩)
      rw [hcount ')' front, hcount '(' front] at this
      omega

/-- A text inside one segment, wherever it stands outside parentheses. -/
def IsSegmentPart (as : List Char) : Prop :=
  ∀ bs, topSegments 0 (as ++ bs) = (topSegments 0 bs).modifyHead (as ++ ·)

theorem IsNested.isSegmentPart {as : List Char} (h : IsNested as) : IsSegmentPart as := by
  intro bs
  have hfronts : ∀ front, front <+: as → _ := fun front hfront => h.2 front ((mem_inits front as).2 hfront)
  rw [topSegments_append]
  · rw [h.1, Nat.zero_add, Nat.sub_self]
  · intro front hfront
    have := (hfronts front hfront).1
    omega
  · intro front hfront
    have := (hfronts front ((prefix_append front [',']).trans hfront)).2 hfront
    omega

theorem IsSegmentPart.append {as bs : List Char} (has : IsSegmentPart as) (hbs : IsSegmentPart bs) :
    IsSegmentPart (as ++ bs) := by
  intro cs
  rw [append_assoc, has, hbs, modifyHead_modifyHead]
  congr 1
  funext segment
  exact (append_assoc as bs segment).symm

/-- A text without parentheses and commas is nested in itself. -/
theorem isNested_of_forall {cs : List Char} (h : ∀ c ∈ [',', '(', ')'], c ∉ cs) : IsNested cs := by
  have hcount : ∀ {c : Char} {front : List Char}, c ∉ cs → front <+: cs → front.count c = 0 :=
    fun hc hfront => count_eq_zero.2 fun hmem => hc (hfront.subset hmem)
  have hopen := h '(' (by simp)
  have hclose := h ')' (by simp)
  refine ⟨by rw [hcount hopen (prefix_refl cs), hcount hclose (prefix_refl cs)], fun front hfront => ?_⟩
  rw [mem_inits] at hfront
  rw [hcount hopen hfront, hcount hclose hfront]
  refine ⟨le_refl 0, fun hcomma => absurd (hcomma.subset ?_) (h ',' (by simp))⟩
  simp

/-- Texts inside one segment each are cut apart again, each but the first with the blank in front of it. -/
theorem topSegments_intercalate {first : String} {rest : List String}
    (h : ∀ s ∈ first :: rest, IsSegmentPart s.toList) :
    topSegments 0 (", ".intercalate (first :: rest)).toList = first.toList :: rest.map fun s => ' ' :: s.toList := by
  induction rest generalizing first with
  | nil =>
    have hfirst := h first mem_cons_self []
    rw [append_nil] at hfirst
    rw [String.intercalate_singleton, hfirst]
    simp [topSegments]
  | cons second rest ih =>
    obtain ⟨hfirst, hrest⟩ := forall_mem_cons.1 h
    obtain ⟨hsecond, hothers⟩ := forall_mem_cons.1 hrest
    -- The blank behind the comma is taken to the text that follows it, for which the hypothesis is used.
    have hspace : IsNested " ".toList := by decide
    have hblank : IsSegmentPart (" " ++ second).toList := by
      rw [String.toList_append]
      exact hspace.isSegmentPart.append hsecond
    rw [toList_intercalate_cons_cons, hfirst, topSegments, if_pos ⟨rfl, rfl⟩,
      ih (forall_mem_cons.2 ⟨hblank, hothers⟩)]
    simp

/-! ### Columns -/

/-- The marks of a column. -/
def Field.marks (f : Field) : List String :=
  (if f.primaryKey then ["pk"] else []) ++ (if f.identity then ["identity"] else [])

/-- The marks of a column as they are written behind its type. -/
def Field.markText (f : Field) : String :=
  (if f.primaryKey then " pk" else "") ++ (if f.identity then " identity" else "")

/-- A column as it is written in a list. -/
def Field.text (f : Field) : String := f.name ++ ": " ++ f.type ++ f.markText

/-- The column of one segment of a list. -/
def Field.ofSegment? (segment : List Char) : Option Field := ofText? (String.ofList (trim segment))

/-- Each segment of a list is read as a column.  An empty one at the end is none, so leaving it out does nothing. -/
theorem fieldsOfText_eq (s : String) : fieldsOfText s = (topSegments 0 s.toList).filterMap ofSegment? := by
  have hempty : ofText? "" = none := rfl
  have hmap : (topSegments 0 s.toList).filterMap ofSegment? =
      ((topSegments 0 s.toList).map fun segment => String.ofList (trim segment)).filterMap ofText? := by
    rw [filterMap_map]
    refine filterMap_congr fun segment _ => ?_
    rw [Function.comp_apply, ofSegment?]
  rw [hmap, fieldsOfText, splitFields]
  split
  · rename_i hlast
    obtain ⟨front, hfront⟩ := getLast?_eq_some_iff.1 hlast
    rw [hfront, dropLast_concat, filterMap_append, filterMap_cons_none hempty, filterMap_nil, append_nil]
  · rfl

/-- What is asked of a column that is written in a list, besides that it is well formed: neither its name nor its type
    ends the list or leaves the segment. -/
structure Field.Writable (f : Field) : Prop extends f.WellFormed where
  name_plain : ∀ c ∈ [',', '(', ')', '\x7d'], c ∉ f.name.toList
  type_brace : '\x7d' ∉ f.type.toList
  type_nested : IsNested f.type.toList

namespace Field

variable {f : Field}

theorem toList_text (f : Field) :
    f.text.toList = f.name.toList ++ ':' :: ' ' :: (f.type.toList ++ f.markText.toList) := by
  simp [text]

/-- The text of the marks is one of four. -/
theorem markText_cases (f : Field) :
    IsNested f.markText.toList ∧ '\x7d' ∉ f.markText.toList ∧
      ∀ type, Text.words (type ++ f.markText.toList) = Text.words type ++ f.marks.map String.toList := by
  rw [markText, marks]
  cases f.primaryKey with
  | false =>
    cases f.identity with
    | false => exact ⟨by decide, by decide, fun type => by simp⟩
    | true => exact ⟨by decide, by decide, fun type => words_append_cons rfl type "identity".toList⟩
  | true =>
    cases f.identity with
    | false => exact ⟨by decide, by decide, fun type => words_append_cons rfl type "pk".toList⟩
    | true => exact ⟨by decide, by decide, fun type => words_append_cons rfl type "pk identity".toList⟩

theorem ofWords_marks {words : List String} (htype : f.type = " ".intercalate words)
    (hwords : ∀ w ∈ words, w ≠ "pk" ∧ w ≠ "identity") : ofWords f.name.toList (words ++ f.marks) = f := by
  have hkept : words.filter (fun w => w != "pk" && w != "identity") = words :=
    filter_eq_self.2 fun w hw => by simpa using hwords w hw
  have hpk : "pk" ∉ words := fun h => (hwords _ h).1 rfl
  have hidentity : "identity" ∉ words := fun h => (hwords _ h).2 rfl
  obtain ⟨name, type, primaryKey, identity⟩ := f
  dsimp only at htype
  subst htype
  cases primaryKey <;> cases identity <;> simp [ofWords, marks, hkept, hpk, hidentity]

/-- **A column is read as it is written.** -/
theorem ofSegment?_text (h : f.WellFormed) : ofSegment? f.text.toList = some f := by
  obtain ⟨words, htype, hwords⟩ := h.type
  -- The name is trimmed and not empty, so only the end of the text can lose blanks.
  have htrim : trim f.text.toList =
      f.name.toList ++ ':' :: Text.trimTail (' ' :: (f.type.toList ++ f.markText.toList)) := by
    rw [toList_text, trim_append_cons (by simpa using h.name_ne) h.name_trimmed rfl]
  have hrest : Text.words (Text.trimTail (' ' :: (f.type.toList ++ f.markText.toList))) =
      (words ++ f.marks).map String.toList := by
    rw [words_trimTail, words_blank_cons rfl, f.markText_cases.2.2, htype,
      words_intercalate fun w hw => ⟨(hwords w hw).1, (hwords w hw).2.1⟩, map_append]
  rw [ofSegment?, ofText?_eq, String.toList_ofList, trim_of_isTrimmed (isTrimmed_trim _), htrim, split,
    cutAt?_of_notMem h.name_colon]
  dsimp only
  rw [trim_of_isTrimmed h.name_trimmed, hrest, map_map, if_neg (by simpa using h.name_ne)]
  simp only [Function.comp_def, String.ofList_toList, map_id']
  rw [ofWords_marks htype fun w hw => (hwords w hw).2.2]

theorem ofSegment?_blank_cons (segment : List Char) : ofSegment? (' ' :: segment) = ofSegment? segment := by
  rw [ofSegment?, ofSegment?, trim_blank_cons rfl]

theorem Writable.isSegmentPart_text (h : f.Writable) : IsSegmentPart f.text.toList := by
  have hname : IsNested f.name.toList :=
    isNested_of_forall fun c hc => h.name_plain c (mem_append_left ['\x7d'] hc)
  have hcolon : IsNested [':', ' '] := by decide
  rw [toList_text]
  exact hname.isSegmentPart.append
    (hcolon.isSegmentPart.append (h.type_nested.isSegmentPart.append f.markText_cases.1.isSegmentPart))

theorem Writable.brace_notMem_text (h : f.Writable) : '\x7d' ∉ f.text.toList := by
  have hname := h.name_plain '\x7d' (by simp)
  rw [toList_text]
  simp [hname, h.type_brace, f.markText_cases.2.1]

end Field

/-- A list of columns is read as it is written. -/
theorem fieldsOfText_texts {fields : List Field} (h : ∀ f ∈ fields, f.Writable) :
    fieldsOfText (", ".intercalate (fields.map text)) = fields := by
  cases fields with
  | nil => rfl
  | cons first rest =>
    have hparts : ∀ s ∈ (first :: rest).map text, IsSegmentPart s.toList :=
      forall_mem_map.2 fun f hf => (h f hf).isSegmentPart_text
    obtain ⟨hfirst, hrest⟩ := forall_mem_cons.1 h
    rw [fieldsOfText_eq, map_cons, topSegments_intercalate hparts,
      filterMap_cons_some (ofSegment?_text hfirst.toWellFormed), map_map, filterMap_map]
    congr 1
    refine (filterMap_congr fun f hf => ?_).trans filterMap_some
    rw [Function.comp_apply, Function.comp_apply, ofSegment?_blank_cons,
      ofSegment?_text (hrest f hf).toWellFormed]

/-! ### The line -/

def migrationText (table : String) (fields : List Field) : String :=
  "whisper: db migration " ++ inQuotes ("create_" ++ table ++ "_table") ++ " with fields "
    ++ inBraces (", ".intercalate (fields.map text))

theorem toList_migrationText (table : String) (fields : List Field) :
    (migrationText table fields).toList = "whisper: db migration ".toList ++
      ((inQuotes ("create_" ++ table ++ "_table")).toList ++ (" with fields ".toList ++
        (inBraces (", ".intercalate (fields.map text))).toList)) := by
  show ("whisper: db migration " ++ inQuotes ("create_" ++ table ++ "_table") ++ " with fields "
    ++ inBraces (", ".intercalate (fields.map text))).toList = _
  simp only [String.toList_append, append_assoc]

theorem tableOfName_create {table : String} (hne : table ≠ "") :
    tableOfName ("create_" ++ table ++ "_table") = table := by
  have hname : ("create_" ++ table ++ "_table").toList = "create_".toList ++ (table.toList ++ "_table".toList) := by
    simp only [String.toList_append, append_assoc]
  obtain ⟨c, cs, htable⟩ := exists_cons_of_ne_nil (fun h => hne (String.toList_eq_nil_iff.1 h))
  rw [tableOfName, hname, stripLead?_append, Option.bind_some, stripTail?_append, htable]
  exact (congrArg String.ofList htable.symm).trans String.ofList_toList

section Line

variable {table : String} {fields : List Field} (htable : table ≠ "") (hquote : '\'' ∉ table.toList)
  (hfields : fields ≠ []) (hwritable : ∀ f ∈ fields, f.Writable)

include htable hquote hfields hwritable

theorem readsOff_migrationText :
    ReadsOff migrationScan (migrationText table fields).toList (.migration { table, fields := some fields }) [] := by
  have hlead : "whisper: db migration ".toList = "whisper: ".toList ++ "db migration ".toList := by decide
  have hname : "create_" ++ table ++ "_table" ≠ "" := by simp
  have hnameQuote : '\'' ∉ ("create_" ++ table ++ "_table").toList := by simpa using hquote
  have hlist : ", ".intercalate (fields.map text) ≠ "" := by
    intro h
    rw [← fieldsOfText_texts hwritable, h] at hfields
    exact hfields rfl
  have hbrace : ∀ c ∈ (", ".intercalate (fields.map text)).toList, (c != '\x7d') = true := by
    refine forall_mem_intercalate (all_eq_true.1 (by decide)) (forall_mem_map.2 fun f hf c hc => ?_)
    rw [bne_iff_ne]
    exact fun heq => (hwritable f hf).brace_notMem_text (heq ▸ hc)
  have hscan : ReadsOff migrationScan (migrationText table fields).toList
      (.migration
        { table := tableOfName ("create_" ++ table ++ "_table")
          fields := if (fieldsOfText (", ".intercalate (fields.map text))).isEmpty then none
            else some (fieldsOfText (", ".intercalate (fields.map text))) }) [] := by
    rw [toList_migrationText, hlead, append_assoc,
      ← append_nil (inBraces (", ".intercalate (fields.map text))).toList]
    exact (readsOff_whisper (stops_append (by decide) _)).bind ((readsOff_literal _ _).bind
      ((readsOff_quotedText hname hnameQuote).bind ((readsOff_literal _ _).bind
        (readsOff_columnList rfl hlist hbrace).last)))
  rwa [tableOfName_create htable, fieldsOfText_texts hwritable, if_neg (by simpa using hfields)] at hscan

theorem directive?_migrationText (n : Int) :
    Line.directive? { number := n, text := migrationText table fields } =
      some (.migration { table, fields := some fields }) := by
  have hclaiming : Rule.claiming? (migrationText table fields).toList =
      some ((Rule.scanning "migration" "whisper: db migration " migrationScan).marked "") := by
    rw [toList_migrationText, Rule.claiming?_append, Rule.all_filter_meets.2.2.2]
    exact find?_cons_of_pos (Rule.claims_iff.2 ⟨prefix_append _ _, nil_infix⟩)
  exact Line.directive?_of_readsOff hclaiming (readsOff_migrationText htable hquote hfields hwritable) n

/-- **Migrations are taken as they are written.** Whatever the service is, the line puts one migration behind the
    others, of this table and with these columns in their order, and does nothing else. -/
theorem step_of_migrationText (s : Service) (n : Int) :
    s.step { number := n, text := migrationText table fields } =
      .ok ({ s with migrations := s.migrations ++ [{ table, fields := some fields }] }, none) :=
  Line.step_of_directive? (directive?_migrationText htable hquote hfields hwritable n) s

end Line

/-- A table that is named as its migration could be, and commas inside of parentheses inside of parentheses. -/
theorem step_of_migrationText_nestedCommas :
    ({ migrations := [{ table := "users" }] } : Service).step
        { number := 3
          text := "whisper: db migration 'create_create__table_table' with fields " ++
            "\x7bid: INT pk identity, net price: DECIMAL(10, 2) DEFAULT (f(0,(1))) pk\x7d" } =
      .ok ({ migrations := [
        { table := "users" },
        { table := "create__table"
          fields := some [
            { name := "id", type := "INT", primaryKey := true, identity := true },
            { name := "net price", type := "DECIMAL(10, 2) DEFAULT (f(0,(1)))", primaryKey := true }] }] }, none) := by
  have hid : Text.trim "id".toList = "id".toList := by decide
  have hprice : Text.trim "net price".toList = "net price".toList := by decide
  have hline : "whisper: db migration 'create_create__table_table' with fields " ++
        "\x7bid: INT pk identity, net price: DECIMAL(10, 2) DEFAULT (f(0,(1))) pk\x7d" =
      migrationText "create__table" [
        { name := "id", type := "INT", primaryKey := true, identity := true },
        { name := "net price", type := "DECIMAL(10, 2) DEFAULT (f(0,(1)))", primaryKey := true }] := by
    decide +kernel
  rw [hline]
  refine step_of_migrationText (by decide) (by decide) (by decide) ?_ { migrations := [{ table := "users" }] } 3
  simp only [List.forall_mem_cons]
  refine ⟨?_, ?_, List.forall_mem_nil _⟩
  · exact
      { name_ne := by decide, name_trimmed := hid ▸ Text.isTrimmed_trim _, name_colon := by decide
        type := ⟨["INT"], by decide, by simp [Text.isBlank]⟩
        name_plain := by simp, type_brace := by decide, type_nested := by decide }
  · exact
      { name_ne := by decide, name_trimmed := hprice ▸ Text.isTrimmed_trim _, name_colon := by decide
        type := ⟨["DECIMAL(10,", "2)", "DEFAULT", "(f(0,(1)))"], by decide, by simp [Text.isBlank]⟩
        name_plain := by simp, type_brace := by decide, type_nested := by decide }

end ServiceCompiler
