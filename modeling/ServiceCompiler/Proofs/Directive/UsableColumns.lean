import ServiceCompiler.Code.Routes
import ServiceCompiler.Proofs.Directive.Merge
import ServiceCompiler.Proofs.Directive.MigrationText

namespace ServiceCompiler

open Text Directive Rule
open List hiding splitOn

open Text (Scan Yields literal)

/-!
# Usable lists of columns

A line gives the columns of a table, or the fields of a submitted document, as a list in braces.  The braces are never
empty, but what stands in them may be commas and blanks only, and a field may be more than one word.  Such a line is
taken like any other, and leaves a table without columns, or a statement that names none or one with a blank in it.

* `Line.tableList?`, `Line.documentList?` — the lists of a line, as they are written.
* `Line.tableColumns?_eq`, `Line.documentFields?_eq` — what the line makes of them.
* `NamesColumn`, `IsWordList` — the lists that can be used.
* `hasUsableColumns_iff` — a source that is built has only columns that can be used exactly if its lines have only such
  lists, and exactly if the statements for either engine do.
-/

/-! ### The two rules -/

/-- The rule for tables. -/
def migrationRule : Rule := scanning "migration" "whisper: db migration " migrationScan

/-- The rule for submitted documents. -/
def insertRule : Rule := (scanning "insert route" "when posted to " insertRouteScan).marked "insert into"

def Directive.tableColumns? (d : Directive) : Option (List Field) := d.migration?.map Migration.columns

def Directive.documentFields? : Directive → Option (List String)
  | .route r => if r.action = .insert then some r.bodyFields else none
  | _ => none

theorem Directive.documentFields?_eq_some_iff {d : Directive} {fields : List String} :
    d.documentFields? = some fields ↔ ∃ r, d = .route r ∧ r.action = .insert ∧ r.bodyFields = fields := by
  cases d with
  | route r => simp [documentFields?]
  | _ => simp [documentFields?]

theorem Directive.eq_route_of_route? {d : Directive} {r : Route} (h : d.route? = some r) : d = .route r := by
  cases d with
  | route r' => rw [Option.some.inj h]
  | _ => cases h

/-- A directive without a list. -/
def Directive.IsBare (d : Directive) : Prop := d.tableColumns? = none ∧ d.documentFields? = none

/-- Of all rules, two give lists. -/
theorem Rule.bare_or_lists :
    ∀ rule ∈ all, rule.Sound IsBare ∨ rule = insertRule ∨ rule = migrationRule := by
  simp only [all, forall_mem_cons]
  refine ⟨.inl ?essence, .inl ?port, .inl ?json, .inl ?environment, .inl ?cors, .inl ?dialect, .inl ?connect,
    .inl ?collection, .inl ?logger, .inl ?static, .inl ?enable, .inl ?strategy, .inl ?guard, .inl ?framework,
    .inl ?package, .inl ?list, .inl ?get, .inr (.inl rfl), .inr (.inr rfl), forall_mem_nil _⟩
  case port =>
    -- The one rule that reads at the start of the line only, and that refuses some of what it reads.
    intro line d hd
    obtain ⟨d', hd', heq⟩ := Option.map_eq_some_iff.1 hd
    obtain rfl : d' = d := by simpa using heq
    have hyields : Yields portScan IsBare := by
      refine .after (.bind (.trivial _) fun _ _ => .bind (.trivial _) fun number _ => ?_)
      split
      · exact .pure ⟨rfl, rfl⟩
      · exact .failure
    exact hyields.atStart? hd'
  case dialect | strategy | framework => exact sound_choosing fun _ _ => ⟨rfl, rfl⟩
  case environment | static | package =>
    exact sound_scanning (.after (.after (.bind (.trivial _) fun _ _ => .pure ⟨rfl, rfl⟩)))
  case connect | collection => exact sound_scanning (.after (.bind (.trivial _) fun _ _ => .pure ⟨rfl, rfl⟩))
  case guard => exact sound_scanning (.after (.after (.bind (.trivial _) fun _ _ => .after (.pure ⟨rfl, rfl⟩))))
  case list | get =>
    exact sound_marked (sound_scanning (.after (.bind (.trivial _) fun _ _ => .after
      (.bind (.trivial _) fun _ _ => .pure ⟨rfl, rfl⟩))))
  all_goals exact sound_fixed ⟨rfl, rfl⟩

theorem sound_insertRule : insertRule.Sound (·.tableColumns? = none) :=
  sound_marked (sound_scanning (.after (.bind (.trivial _) fun _ _ => .after (.bind (.trivial _) fun _ _ =>
    .after (.bind (.trivial _) fun _ _ => .after (.pure rfl))))))

theorem sound_migrationRule : migrationRule.Sound (·.documentFields? = none) :=
  sound_scanning (.after (.after (.bind (.trivial _) fun _ _ => .after (.bind (.trivial _) fun _ _ => .pure rfl))))

/-- No other rule is tried before the rule for tables, where that claims a line. -/
theorem claiming?_migrationRule {line : List Char} (h : migrationRule.claims line) :
    claiming? line = some migrationRule := by
  obtain ⟨rest, rfl⟩ : "whisper: db migration ".toList <+: line := (claims_iff.1 h).1
  rw [claiming?_append, all_filter_meets.2.2.2]
  exact find?_cons_of_pos h

theorem claiming?_insertRule {line : List Char} (h : insertRule.claims line) :
    claiming? line = some insertRule := by
  obtain ⟨rest, rfl⟩ : "when posted to ".toList <+: line := (claims_iff.1 h).1
  rw [claiming?_append, all_filter_meets.2.1]
  exact find?_cons_of_pos h

/-! ### Lists as they are written -/

/-- The name of a table and the list of its columns. -/
def migrationForm : Scan (String × String) := do
  whisper
  literal "db migration "
  let name ← quotedText
  literal " with fields "
  let list ← columnList (· != '\x7d')
  return (name, list)

/-- The path and the collection of a route that inserts, and between them the list of its fields. -/
def insertForm : Scan (String × String × String) := do
  literal "when posted to "
  let path ← routePath
  literal " with body "
  let list ← columnList fun c => isWordChar c || isGap c || c == ','
  literal ", insert into "
  let collection ← quotedWord
  literal ", return inserted document"
  return (path, list, collection)

theorem migrationScan_eq :
    migrationScan = (fun form => migration
      { table := tableOfName form.1
        fields := if (fieldsOfText form.2).isEmpty then none else some (fieldsOfText form.2) }) <$> migrationForm := by
  simp only [migrationForm, map_bind, map_pure]
  rfl

theorem insertRouteScan_eq :
    insertRouteScan = (fun form => route
      { method := "POST", path := form.1, action := .insert, collection := form.2.2
        bodyFields := bodyFieldsOfText form.2.1 }) <$> insertForm := by
  simp only [insertForm, map_bind, map_pure]
  rfl

theorem yields_insertForm :
    Yields insertForm fun form => ∀ c ∈ form.2.1.toList, (isWordChar c || isGap c || c == ',') = true :=
  .after (.bind (.trivial _) fun _ _ => .after (.bind (yields_columnList _) fun _ hlist => .after
    (.bind (.trivial _) fun _ _ => .after (.pure hlist))))

namespace Line

def tableList? (line : Line) : Option String :=
  if migrationRule.claims line.text.toList then (migrationForm.anywhere? line.text.toList).map (·.2) else none

/-- The list of fields in a line that is claimed as one of a route that inserts. -/
def documentList? (line : Line) : Option String :=
  if insertRule.claims line.text.toList then (insertForm.anywhere? line.text.toList).map (·.2.1) else none

/-- Only two rules give lists. -/
theorem claims_of_directive? {line : Line} {d : Directive} (h : line.directive? = some d) :
    (d.tableColumns? = none ∨ migrationRule.claims line.text.toList) ∧
      (d.documentFields? = none ∨ insertRule.claims line.text.toList) := by
  obtain ⟨rule, hrule, harguments⟩ := exists_rule_of_directive? h
  have hclaims := find?_some hrule
  rcases bare_or_lists rule (mem_of_find?_eq_some hrule) with hbare | rfl | rfl
  · exact ⟨.inl (hbare _ _ harguments).1, .inl (hbare _ _ harguments).2⟩
  · exact ⟨.inl (sound_insertRule _ _ harguments), .inr hclaims⟩
  · exact ⟨.inr hclaims, .inl (sound_migrationRule _ _ harguments)⟩

/-- **The columns of a line** are those of the list in its braces. -/
theorem tableColumns?_eq (line : Line) :
    line.directive?.bind tableColumns? = line.tableList?.map fieldsOfText := by
  rw [tableList?]
  split
  · rename_i hclaims
    rw [directive?_of_claiming line (claiming?_migrationRule hclaims), migrationScan_eq, anywhere?_map]
    cases migrationForm.anywhere? line.text.toList with
    | none => rfl
    | some form =>
      -- A list without a column is kept as one that was never given, which makes no difference to the columns.
      have hcolumns : (if (fieldsOfText form.2).isEmpty then none else some (fieldsOfText form.2)).getD [] =
          fieldsOfText form.2 := by
        split
        · rename_i hempty
          exact (List.isEmpty_iff.1 hempty).symm
        · rfl
      exact congrArg some hcolumns
  · rename_i hclaims
    rw [Option.map_none, Option.bind_eq_none_iff]
    exact fun d hd => (claims_of_directive? hd).1.resolve_right hclaims

/-- **The fields of a line** are those of the list in its braces. -/
theorem documentFields?_eq (line : Line) :
    line.directive?.bind documentFields? = line.documentList?.map bodyFieldsOfText := by
  rw [documentList?]
  split
  · rename_i hclaims
    rw [directive?_of_claiming line (claiming?_insertRule hclaims), insertRouteScan_eq, anywhere?_map]
    cases insertForm.anywhere? line.text.toList <;> rfl
  · rename_i hclaims
    rw [Option.map_none, Option.bind_eq_none_iff]
    exact fun d hd => (claims_of_directive? hd).2.resolve_right hclaims

/-- The characters of a list of fields. -/
theorem isListChar_of_documentList? {line : Line} {list : String} (h : line.documentList? = some list) :
    ∀ c ∈ list.toList, (isWordChar c || isGap c || c == ',') = true := by
  rw [documentList?] at h
  split at h
  · obtain ⟨form, hform, rfl⟩ := Option.map_eq_some_iff.1 h
    exact yields_insertForm.anywhere? hform
  · simp at h

end Line

/-! ### Lists that can be used -/

/-- Some segment of the list names a column: there is something else than blanks in it, and that does not begin with
    the colon behind the name. -/
def NamesColumn (list : String) : Prop :=
  ∃ segment ∈ topSegments 0 list.toList, ∃ c, segment.find? (!isBlank ·) = some c ∧ c ≠ ':'

/-- There is one word between the commas at most, and at least once there is one. -/
def IsWordList (list : String) : Prop :=
  (∀ piece ∈ splitOn ',' list.toList, (words piece).length ≤ 1) ∧
    ∃ piece ∈ splitOn ',' list.toList, words piece ≠ []

/-- The name of a column begins the text, and is empty only where nothing or a colon does. -/
theorem Field.split_fst {text : List Char} (h : ∀ c, text.head? = some c → isBlank c = false) :
    (Field.split text).1 <+: text ∧ ((Field.split text).1 = [] ↔ text = [] ∨ text.head? = some ':') := by
  rw [Field.split]
  split
  · rename_i parts hcut
    have heq := (eq_append_of_cutAt? hcut).1
    refine ⟨⟨_, heq.symm⟩, (fst_eq_nil_iff_of_cutAt? hcut).trans ⟨.inr, ?_⟩⟩
    rintro (hnil | hhead)
    · simp [hnil] at heq
    · exact hhead
  · rename_i hcut
    have hcolon : text.head? ≠ some ':' := fun hhead =>
      mark_notMem_of_cutAt? hcut (mem_of_mem_head? hhead)
    -- Without a colon the name ends at the first space, and no text that is trimmed begins with one.
    cases hspace : cutAt? ' ' text with
    | none => exact ⟨prefix_refl text, by simp [hcolon]⟩
    | some parts =>
      have heq := (eq_append_of_cutAt? hspace).1
      have hnone : parts.1 ≠ [] := fun hnil =>
        absurd (h ' ' ((fst_eq_nil_iff_of_cutAt? hspace).1 hnil)) (by decide)
      have hne : text ≠ [] := by
        rw [heq]
        simp
      exact ⟨⟨_, heq.symm⟩, by simp [hnone, hne, hcolon]⟩

/-- A segment is a column exactly if it names one. -/
theorem Field.isSome_ofSegment?_iff (segment : List Char) :
    (Field.ofSegment? segment).isSome ↔ ∃ c, segment.find? (!isBlank ·) = some c ∧ c ≠ ':' := by
  have htrimmed := isTrimmed_trim segment
  obtain ⟨hbegins, hnil⟩ := Field.split_fst htrimmed.1
  have hhead : ∀ c, (Field.split (trim segment)).1.head? = some c → isBlank c = false := by
    intro c hc
    obtain ⟨rest, hrest⟩ := hbegins
    exact htrimmed.1 c (by rw [← hrest, head?_append, hc]; rfl)
  rw [Field.ofSegment?, Field.ofText?_eq, String.toList_ofList, trim_of_isTrimmed htrimmed, ← head?_trim]
  dsimp only
  rw [apply_ite Option.isSome]
  simp only [List.isEmpty_iff, trim_eq_nil_iff hhead, hnil]
  cases trim segment <;> simp

theorem fieldsOfText_ne_nil_iff (list : String) : fieldsOfText list ≠ [] ↔ NamesColumn list := by
  rw [fieldsOfText_eq, NamesColumn, Ne, filterMap_eq_nil_iff]
  simp only [← Field.isSome_ofSegment?_iff, Option.isSome_iff_ne_none]
  push Not
  rfl

theorem isBlank_of_isGap {c : Char} (h : isGap c) : isBlank c := by
  simp only [isGap, Bool.or_eq_true, beq_iff_eq] at h
  rcases h with (((rfl | rfl) | rfl) | rfl) | rfl <;> rfl

/-- A field is one word exactly if no blank stands in it. -/
theorem isPlainWord_iff {f : String} (hne : f ≠ "") (hchars : ∀ c ∈ f.toList, isFieldChar c) :
    IsPlainWord f ↔ ∀ c ∈ f.toList, isBlank c = false := by
  refine ⟨fun hplain c hc => not_isBlank_of_isWordChar (hplain.2 c hc), fun hall => ⟨hne, fun c hc => ?_⟩⟩
  rcases Bool.or_eq_true_iff.1 (hchars c hc) with hchar | hgap
  · exact hchar
  · exact absurd (isBlank_of_isGap hgap) (by simp [hall c hc])

theorem mem_bodyFieldsOfText {list f : String} :
    f ∈ bodyFieldsOfText list ↔
      ∃ piece ∈ splitOn ',' list.toList, words piece ≠ [] ∧ String.ofList (trim piece) = f := by
  rw [bodyFieldsOfText, mem_filter, mem_map, bne_iff_ne]
  constructor
  · rintro ⟨⟨piece, hpiece, rfl⟩, hne⟩
    exact ⟨piece, hpiece, fun h => hne (by rw [words_eq_nil_iff_trim.1 h]), rfl⟩
  · rintro ⟨piece, hpiece, hwords, rfl⟩
    exact ⟨⟨piece, hpiece, rfl⟩, fun h => hwords (words_eq_nil_iff_trim.2 (by simpa using h))⟩

/-- Every field of a document is one word exactly if there is one word between the commas at most. -/
theorem bodyFieldsOfText_iff {list : String}
    (h : ∀ c ∈ list.toList, (isWordChar c || isGap c || c == ',') = true) :
    (bodyFieldsOfText list ≠ [] ∧ ∀ f ∈ bodyFieldsOfText list, IsPlainWord f) ↔ IsWordList list := by
  have hword : ∀ piece ∈ splitOn ',' list.toList, words piece ≠ [] →
      (IsPlainWord (String.ofList (trim piece)) ↔ (words piece).length ≤ 1) := by
    intro piece hpiece hwords
    have hne : String.ofList (trim piece) ≠ "" := fun hempty =>
      hwords (words_eq_nil_iff_trim.2 (by simpa using hempty))
    have hmem : String.ofList (trim piece) ∈ bodyFieldsOfText list :=
      mem_bodyFieldsOfText.2 ⟨piece, hpiece, hwords, rfl⟩
    rw [isPlainWord_iff hne (isFieldChar_of_mem_bodyFieldsOfText h _ hmem), String.toList_ofList, ← words_trim,
      length_words_le_one_iff (isTrimmed_trim piece)]
  rw [IsWordList, and_comm]
  refine and_congr ⟨fun hall piece hpiece => ?_, fun hall f hf => ?_⟩ ?_
  · by_cases hwords : words piece = []
    · rw [hwords]
      exact Nat.zero_le 1
    · exact (hword piece hpiece hwords).1 (hall _ (mem_bodyFieldsOfText.2 ⟨piece, hpiece, hwords, rfl⟩))
  · obtain ⟨piece, hpiece, hwords, rfl⟩ := mem_bodyFieldsOfText.1 hf
    exact (hword piece hpiece hwords).2 (hall piece hpiece)
  · refine ⟨fun hne => ?_, fun ⟨piece, hpiece, hwords⟩ => ?_⟩
    · obtain ⟨f, hf⟩ := exists_mem_of_ne_nil _ hne
      obtain ⟨piece, hpiece, hwords, -⟩ := mem_bodyFieldsOfText.1 hf
      exact ⟨piece, hpiece, hwords⟩
    · exact ne_nil_of_mem (mem_bodyFieldsOfText.2 ⟨piece, hpiece, hwords, rfl⟩)

/-! ### Services and statements -/

/-- Every table has a column, and every document that is stored has a field, each of them one word. -/
structure Service.HasUsableColumns (s : Service) : Prop where
  tables : ∀ m ∈ s.migrations, m.columns ≠ []
  documents : ∀ r ∈ s.routes, r.action = .insert → r.bodyFields ≠ [] ∧ ∀ f ∈ r.bodyFields, IsPlainWord f

/-- No statement for the engine creates a table without columns, and each that inserts names columns, none of them with
    a blank in it. -/
structure Service.HasUsableStatements (s : Service) (e : Engine) : Prop where
  tables : ∀ m ∈ s.migrations, e.createTable m.table m.columns ≠ e.createTable m.table []
  documents : ∀ r ∈ s.routes, r.action = .insert → ∃ statement parts,
    Code.handlerStatement? e r = some statement ∧ readInsert? statement.statement.toList = some parts ∧
      parts.columns ≠ [] ∧ ∀ column ∈ parts.columns, ∀ c ∈ column.toList, isBlank c = false

theorem intercalate_cons_ne_empty (sep : String) {first : String} (h : first ≠ "") (rest : List String) :
    sep.intercalate (first :: rest) ≠ "" := by
  cases rest with
  | nil => rwa [String.intercalate_singleton]
  | cons second rest =>
    rw [String.intercalate_cons_cons]
    simp [h]

theorem columnDef_ne_empty (e : Engine) {f : Field} (h : f.name ≠ "") : e.columnDef f ≠ "" := by
  refine intercalate_cons_ne_empty _ ?_ _
  cases e with
  | mysql => exact h
  | mssql => simp [Engine.columnName]

/-- A statement creates a table without columns only if there are none. -/
theorem createTable_eq_iff (e : Engine) (table : String) {columns : List Field} (h : ∀ f ∈ columns, f.name ≠ "") :
    e.createTable table columns = e.createTable table [] ↔ columns = [] := by
  refine ⟨fun heq => ?_, fun hnil => by rw [hnil]⟩
  have hlist : ", ".intercalate (columns.map e.columnDef) = "" := by
    have hlists := congrArg String.toList heq
    simp only [Engine.createTable, String.toList_append] at hlists
    exact String.toList_eq_nil_iff.1 (append_cancel_left (append_cancel_right hlists))
  cases columns with
  | nil => rfl
  | cons first rest =>
    exact absurd hlist (intercalate_cons_ne_empty _ (columnDef_ne_empty e (h first mem_cons_self)) _)

/-- What a statement that inserts names, it takes from the fields of the document. -/
theorem exists_insertParts {r : Route} (hr : r.WellFormed) (hbody : r.HasPlainBody) (haction : r.action = .insert)
    (e : Engine) : ∃ statement parts, Code.handlerStatement? e r = some statement ∧
      readInsert? statement.statement.toList = some parts ∧ parts.columns = r.bodyFields.eraseDups := by
  have hcolumns : ∀ name ∈ Code.distinctBodyFields r,
      IsStatementName name ∧ name ≠ "" ∧ IsTrimmed name.toList := by
    intro name hname
    have hmem := mem_eraseDups.1 hname
    obtain ⟨htrimmed, hne, -⟩ := hr.bodyFields name hmem
    exact ⟨hbody name hmem, hne, htrimmed⟩
  have hstatement : Code.handlerStatement? e r = some
      { statement := e.insert r.collection (Code.distinctBodyFields r)
        arguments := (Code.distinctBodyFields r).map fun f => ⟨f, Code.documentValue f⟩ } := by
    rw [Code.handlerStatement?, haction]
  exact ⟨_, _, hstatement, readInsert?_insert e hr.collection.isStatementName hcolumns, rfl⟩

theorem Service.hasUsableStatements_iff {s : Service} (hs : s.WellFormed) (hbody : ∀ r ∈ s.routes, r.HasPlainBody)
    (e : Engine) : s.HasUsableStatements e ↔ s.HasUsableColumns := by
  have htable : ∀ m ∈ s.migrations,
      (e.createTable m.table m.columns ≠ e.createTable m.table [] ↔ m.columns ≠ []) := by
    intro m hm
    exact not_congr (createTable_eq_iff e m.table fun f hf => ((hs.migrations m hm).fields f hf).name_ne)
  constructor
  · intro h
    refine ⟨fun m hm => (htable m hm).1 (h.tables m hm), fun r hr haction => ?_⟩
    obtain ⟨statement, parts, hstatement, hparts, hne, hcolumns⟩ := h.documents r hr haction
    obtain ⟨statement', parts', hstatement', hparts', hfields⟩ :=
      exists_insertParts (hs.routes r hr) (hbody r hr) haction e
    obtain rfl := Option.some.inj (hstatement.symm.trans hstatement')
    obtain rfl := Option.some.inj (hparts.symm.trans hparts')
    -- The statement names each field once, which keeps what is asked of them all.
    rw [hfields] at hne hcolumns
    refine ⟨fun hnil => hne (by rw [hnil]; rfl), fun f hf => ?_⟩
    exact (isPlainWord_iff ((hs.routes r hr).bodyFields f hf).2.1 (hbody r hr f hf)).2
      (hcolumns f (mem_eraseDups.2 hf))
  · intro h
    refine ⟨fun m hm => (htable m hm).2 (h.tables m hm), fun r hr haction => ?_⟩
    obtain ⟨hne, hplain⟩ := h.documents r hr haction
    obtain ⟨statement, parts, hstatement, hparts, hfields⟩ :=
      exists_insertParts (hs.routes r hr) (hbody r hr) haction e
    obtain ⟨f, hf⟩ := exists_mem_of_ne_nil _ hne
    refine ⟨statement, parts, hstatement, hparts, ?_⟩
    rw [hfields]
    refine ⟨ne_nil_of_mem (mem_eraseDups.2 hf), fun column hcolumn c hc => ?_⟩
    exact not_isBlank_of_isWordChar ((hplain column (mem_eraseDups.1 hcolumn)).2 c hc)

/-! ### Sources -/

section Lists

variable {s : Service} {lines : List Line} (h : s.IsMerge (directivesOf lines))

include h

theorem tables_iff_lists :
    (∀ m ∈ s.migrations, m.columns ≠ []) ↔
      ∀ line ∈ lines, ∀ list, line.tableList? = some list → NamesColumn list := by
  rw [h.migrations]
  constructor
  · intro hall line hline list hlist
    have hcolumns : line.directive?.bind tableColumns? = some (fieldsOfText list) := by
      rw [Line.tableColumns?_eq, hlist, Option.map_some]
    obtain ⟨d, hd, hcolumns⟩ := Option.bind_eq_some_iff.1 hcolumns
    obtain ⟨m, hm, hcolumns⟩ := Option.map_eq_some_iff.1 hcolumns
    rw [← fieldsOfText_ne_nil_iff, ← hcolumns]
    exact hall m (mem_filterMap.2 ⟨d, mem_filterMap.2 ⟨line, hline, hd⟩, hm⟩)
  · intro hall m hm
    obtain ⟨d, hd, hm⟩ := mem_filterMap.1 hm
    obtain ⟨line, hline, hd⟩ := mem_filterMap.1 hd
    have hcolumns : line.tableList?.map fieldsOfText = some m.columns := by
      rw [← Line.tableColumns?_eq, hd, Option.bind_some, tableColumns?, hm, Option.map_some]
    obtain ⟨list, hlist, hcolumns⟩ := Option.map_eq_some_iff.1 hcolumns
    rw [← hcolumns, fieldsOfText_ne_nil_iff]
    exact hall line hline list hlist

theorem documents_iff_lists :
    (∀ r ∈ s.routes, r.action = .insert → r.bodyFields ≠ [] ∧ ∀ f ∈ r.bodyFields, IsPlainWord f) ↔
      ∀ line ∈ lines, ∀ list, line.documentList? = some list → IsWordList list := by
  rw [h.routes]
  constructor
  · intro hall line hline list hlist
    have hfields : line.directive?.bind documentFields? = some (bodyFieldsOfText list) := by
      rw [Line.documentFields?_eq, hlist, Option.map_some]
    obtain ⟨d, hd, hfields⟩ := Option.bind_eq_some_iff.1 hfields
    obtain ⟨r, rfl, haction, hfields⟩ := documentFields?_eq_some_iff.1 hfields
    rw [← bodyFieldsOfText_iff (Line.isListChar_of_documentList? hlist), ← hfields]
    exact hall r (mem_filterMap.2 ⟨_, mem_filterMap.2 ⟨line, hline, hd⟩, rfl⟩) haction
  · intro hall r hr haction
    obtain ⟨d, hd, hr⟩ := mem_filterMap.1 hr
    obtain ⟨line, hline, hd⟩ := mem_filterMap.1 hd
    have hfields : line.documentList?.map bodyFieldsOfText = some r.bodyFields := by
      rw [← Line.documentFields?_eq, hd, Option.bind_some]
      exact documentFields?_eq_some_iff.2 ⟨r, eq_route_of_route? hr, haction, rfl⟩
    obtain ⟨list, hlist, hfields⟩ := Option.map_eq_some_iff.1 hfields
    rw [← hfields, bodyFieldsOfText_iff (Line.isListChar_of_documentList? hlist)]
    exact hall line hline list hlist

end Lists

/-- **Where columns can be used.** The columns of a source that is built can be used exactly if each list in a line of
    it can.  The statements for either engine can be used then, and only then. -/
theorem hasUsableColumns_iff {source : String} {b : Build} (h : Build.ofSource source = .ok b) :
    (b.service.HasUsableColumns ↔ ∀ line ∈ Line.ofSource source,
      (∀ list, line.tableList? = some list → NamesColumn list) ∧
        ∀ list, line.documentList? = some list → IsWordList list) ∧
      ∀ e : Engine, b.service.HasUsableStatements e ↔ b.service.HasUsableColumns := by
  have hmerge := isMerge_of_ofLines h
  have hwell := wellFormed_of_ofSource h
  refine ⟨⟨fun husable line hline => ?_, fun hlists => ?_⟩,
    Service.hasUsableStatements_iff hwell (hasPlainBody_of_ofSource h)⟩
  · exact ⟨(tables_iff_lists hmerge).1 husable.tables line hline,
      (documents_iff_lists hmerge).1 husable.documents line hline⟩
  · exact ⟨(tables_iff_lists hmerge).2 fun line hline => (hlists line hline).1,
      (documents_iff_lists hmerge).2 fun line hline => (hlists line hline).2⟩

/-- Lists with commas to spare, which do no harm. -/
def sparedCommas : String :=
  "whisper: db migration 'u' with fields \x7b, :INT, id: DEC(9,2)\x7d\n" ++
  "when posted to /u with body \x7b , id,, n \x7d, insert into 'u', return inserted document"

def sparedCommasService : Service where
  migrations := [{ table := "u", fields := some [{ name := "id", type := "DEC(9,2)" }] }]
  routes := [{ method := "POST", path := "/u", action := .insert, collection := "u", bodyFields := ["id", "n"] }]

theorem hasUsableColumns_sparedCommas :
    Build.ofSource sparedCommas = .ok { service := sparedCommasService } ∧ sparedCommasService.HasUsableColumns ∧
      ∀ e : Engine, sparedCommasService.HasUsableStatements e := by
  have hbuild : Build.ofSource sparedCommas = .ok { service := sparedCommasService } := by decide +kernel
  have husable : sparedCommasService.HasUsableColumns := by
    refine ⟨by decide, List.forall_mem_singleton.2 fun _ => ⟨by decide, ?_⟩⟩
    simp only [List.forall_mem_cons]
    exact ⟨⟨by decide, List.all_eq_true.1 (by decide)⟩, ⟨by decide, List.all_eq_true.1 (by decide)⟩,
      List.forall_mem_nil _⟩
  exact ⟨hbuild, husable, fun e => ((hasUsableColumns_iff hbuild).2 e).2 husable⟩

/-- A comma is a list, but no column: the table is created without any, and no warning says so. -/
theorem not_hasUsableColumns_comma :
    ∃ b, Build.ofSource "whisper: db migration 'users' with fields \x7b,\x7d" = .ok b ∧ b.warnings = [] ∧
      ¬ b.service.HasUsableColumns := by
  refine ⟨{ service := { migrations := [{ table := "users" }] } }, by decide +kernel, rfl, fun h => ?_⟩
  exact h.tables { table := "users" } List.mem_cons_self rfl

end ServiceCompiler
