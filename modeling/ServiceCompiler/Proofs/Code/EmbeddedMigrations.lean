import ServiceCompiler.Proofs.Code.ArtifactSet
import ServiceCompiler.Proofs.Code.ImportList
import ServiceCompiler.Proofs.Code.PlainComment

namespace ServiceCompiler

open Code Text SourceFile
open List hiding splitOn

/-!
# The embedded migrations

The generated database package holds the statements of the migrations in a variable.  Read back from its text by the
rules of string literals, they are the statements of the plan, in order, whatever the names and types of the tables
are.

* `readMigrations?` — the reader: it finds the variable, reads its type and its rows, and takes the rows apart.
* `rowsFrom_migrationRows` — the rows are read back as they were written.
* `Embeds` — the code of a file holds the plan of a list of migrations.
-/

/-! ### Reading the variable -/

variable (e : Engine)

/-- What the line of the variable starts with. -/
def variableLead : List Char := "var migrations = ".toList

/-- The tokens from the value of the variable on. -/
def variableTokens (code : String) : List Token :=
  match (codeLines code).dropWhile (!hasLead variableLead ·) with
  | [] => []
  | line :: rest => tokens (line.drop variableLead.length) ++ rest.flatMap tokens

/-- One row of a list of structures: its keys and the octets of their values. -/
abbrev Row := List (List Char × Octets)

/-- The names of the fields of a structure of strings, and what follows its closing brace. -/
def fieldsFrom : List Token → Option (List (List Char) × List Token)
  | .mark '\x7d' :: ts => some ([], ts)
  | .word name :: .word type :: ts =>
    if type = "string".toList then (fieldsFrom ts).map fun read => (name :: read.1, read.2) else none
  | _ => none

/-- The rows behind the brace that opens a list; the given row is under way. -/
def rowsFrom : Option Row → List Token → Option (List Row)
  | none, .mark '\x7b' :: ts => rowsFrom (some []) ts
  | none, .mark '\x7d' :: _ => some []
  | some row, .word key :: .mark ':' :: .text value :: .mark ',' :: ts => rowsFrom (some (row ++ [(key, value)])) ts
  | some row, .mark '\x7d' :: .mark ',' :: ts => (rowsFrom none ts).map (row :: ·)
  | some row, .mark '\x7d' :: .mark '\x7d' :: _ => some [row]
  | _, _ => none

/-- One migration as it is embedded; the query is there where the engine needs one. -/
structure EmbeddedStep where
  table : Octets
  existsQuery : Option Octets
  create : Octets
  deriving DecidableEq, Repr

/-- The migration of a row. -/
def EmbeddedStep.ofRow? (row : Row) : Option EmbeddedStep := do
  let table ← row.lookup "table".toList
  let create ← row.lookup "create".toList
  return { table, existsQuery := row.lookup "exists".toList, create }

/-- The migrations of a list, behind the keyword of its type.  A row has the fields of the structure, each once. -/
def readList? : List Token → Option (List EmbeddedStep)
  | .mark '\x7b' :: ts => do
    let (fields, ts) ← fieldsFrom ts
    let rows ← match ts with
      | .mark '\x7b' :: ts => rowsFrom none ts
      | _ => none
    if rows.all fun row => (row.map Prod.fst).isPerm fields then rows.mapM EmbeddedStep.ofRow? else none
  | _ => none

/-- The migrations that the code of the database package holds. -/
def readMigrations? (code : String) : Option (List EmbeddedStep) :=
  match variableTokens code with
  | .mark '[' :: .mark ']' :: .word keyword :: ts => if keyword = "struct".toList then readList? ts else none
  | _ => none

def EmbeddedStep.ofStep (e : Engine) (s : PlanStep) : EmbeddedStep where
  table := Octets.ofString s.table
  existsQuery :=
    match e with
    | .mysql => none
    | .mssql => some (Octets.ofString s.existsQuery)
  create := Octets.ofString s.create

/-! ### Rows -/

/-- The fields of a step in the order in which they are written. -/
def stepFields (e : Engine) (s : PlanStep) : List (String × String) :=
  match e with
  | .mysql => [("create", s.create), ("table", s.table)]
  | .mssql => [("create", s.create), ("exists", s.existsQuery), ("table", s.table)]

def entryTokens (field : String × String) : List Token :=
  [.word field.1.toList, .mark ':', .text (Octets.ofString field.2), .mark ',']

theorem tokens_blanks (n : Nat) (cs : List Char) : tokens (replicate n ' ' ++ cs) = tokens cs := by
  induction n with
  | zero => rfl
  | succ n ih => exact (tokens_blank rfl _).trans ih

/-- An entry is read as its key and the octets of its value, however far the value is pushed to the right. -/
theorem tokens_entry {key : String} (hkey : IsWord key) (n : Nat) (value : String) :
    tokens ("\t" ++ (key ++ ":" ++ String.ofList (replicate n ' ') ++ lit value ++ ",")).toList =
      entryTokens (key, value) := by
  have hcolon : ∀ c ∈ (':' :: (replicate n ' ' ++ ((quoted value).toList ++ [',']))).head?, isWordChar c = false := by
    rintro c ⟨rfl⟩
    decide
  simp only [String.toList_append, String.toList_ofList, append_assoc]
  show tokens ('\t' :: (key.toList ++ ':' :: (replicate n ' ' ++ ((quoted value).toList ++ [','])))) = _
  rw [tokens_blank rfl, tokens_word hkey.1 hkey.2 hcolon, tokens_mark rfl rfl (by decide), tokens_blanks, tokens_quoted,
    tokens_mark rfl rfl (by decide)]
  rfl

/-- The tokens of lines that may hold several. -/
abbrev tokensOf (lines : List String) : List Token := (lines.flatMap codeLines).flatMap tokens

theorem tokensOf_append (as bs : List String) : tokensOf (as ++ bs) = tokensOf as ++ tokensOf bs := by
  rw [tokensOf, flatMap_append, flatMap_append]

theorem tokensOf_cons (a : String) (as : List String) : tokensOf (a :: as) = tokensOf [a] ++ tokensOf as :=
  tokensOf_append [a] as

theorem tokensOf_line {line : String} (h : IsLine line) : tokensOf [line] = tokens line.toList := by
  rw [tokensOf, flatMap_singleton, h.codeLines, flatMap_singleton]

/-- Aligned entries are read one after the other. -/
theorem tokensOf_alignColumn {fields : List (String × String)} (hfields : ∀ f ∈ fields, IsWord f.1) :
    tokensOf (indent (alignColumn (fields.map fun f => (f.1, lit f.2)))) = fields.flatMap entryTokens := by
  rw [alignColumn, map_map]
  -- The width is that of the longest key, but any would do.
  generalize foldl max 0 _ = width
  induction fields with
  | nil => rfl
  | cons f fields ih =>
    obtain ⟨hword, hrest⟩ := forall_mem_cons.1 hfields
    have hline : IsLine (f.1 ++ ":" ++ String.ofList (replicate (width - f.1.length + 1) ' ') ++ lit f.2 ++ ",") := by
      refine IsLine.append (IsLine.append (IsLine.append (hword.isLine.append (by decide)) ?_) (IsLine.quoted _)) (by decide)
      rw [IsLine, String.toList_ofList]
      intro hmem
      exact absurd (eq_of_mem_replicate hmem) (by decide)
    have hne : f.1 ++ ":" ++ String.ofList (replicate (width - f.1.length + 1) ' ') ++ lit f.2 ++ "," ≠ "" := by
      intro hempty
      exact absurd (String.append_eq_empty_iff.1 hempty).2 (by decide)
    rw [map_cons, indent, map_cons, tokensOf_cons, flatMap_cons, ← ih hrest]
    congr 1
    show tokensOf [indentLine (f.1 ++ ":" ++ String.ofList (replicate (width - f.1.length + 1) ' ') ++ lit f.2 ++ ",")] = _
    rw [tokensOf_line hline.indentLine, indentLine, if_neg hne]
    exact tokens_entry hword _ f.2

theorem mergeSort_migrationEntries (s : PlanStep) :
    ((migrationEntries e s).mergeSort fun a b => before a.1 b.1) = (stepFields e s).map fun f => (f.1, lit f.2) := by
  cases e <;> simp [migrationEntries, Engine.conditionalCreate, stepFields, mergeSort, before]

/-- The entries of a step are written in the order of their keys, in one column. -/
theorem drop_dropLast_keyed (s : PlanStep) :
    ((keyed "" (migrationEntries e s)).drop 1).dropLast =
      indent (alignColumn ((stepFields e s).map fun f => (f.1, lit f.2))) := by
  have hkeyed : keyed "" (migrationEntries e s) =
      ("" ++ "\x7b") :: indent ((columnsFrom [] [] ((stepFields e s).map fun f => (f.1, lit f.2))).flatMap alignColumn)
        ++ ["\x7d"] := by
    rw [← mergeSort_migrationEntries]
    cases e <;> rfl
  -- The keys are too short to start a second column.
  have hcolumn : columnsFrom [] [] ((stepFields e s).map fun f => (f.1, lit f.2)) =
      [(stepFields e s).map fun f => (f.1, lit f.2)] := by
    cases e <;> rfl
  rw [hkeyed, hcolumn, flatMap_singleton, cons_append, drop_one, tail_cons, dropLast_concat]

/-- The row of a step as it is read. -/
def rowOf (e : Engine) (s : PlanStep) : Row := (stepFields e s).map fun f => (f.1.toList, Octets.ofString f.2)

theorem rowsFrom_entries (fields : List (String × String)) (row : Row) (ts : List Token) :
    rowsFrom (some row) (fields.flatMap entryTokens ++ ts) =
      rowsFrom (some (row ++ fields.map fun f => (f.1.toList, Octets.ofString f.2))) ts := by
  induction fields generalizing row with
  | nil => rw [flatMap_nil, nil_append, map_nil, append_nil]
  | cons f fields ih =>
    rw [flatMap_cons, append_assoc, map_cons, append_cons, ← ih]
    rfl

theorem isWord_of_mem_stepFields {e : Engine} {s : PlanStep} : ∀ f ∈ stepFields e s, IsWord f.1 := by
  cases e <;> simp only [stepFields, forall_mem_cons] <;> decide +revert

/-- A row in front of others: its entries, and then the brace that closes it. -/
theorem rowsFrom_row (s : PlanStep) (line : String) (lines : List String) (ts : List Token) :
    rowsFrom (some []) (tokensOf (((keyed "" (migrationEntries e s)).drop 1).dropLast ++ line :: lines) ++ ts) =
      rowsFrom (some (rowOf e s)) (tokensOf [line] ++ (tokensOf lines ++ ts)) := by
  rw [tokensOf_append, drop_dropLast_keyed, tokensOf_alignColumn isWord_of_mem_stepFields, append_assoc,
    rowsFrom_entries, tokensOf_cons, append_assoc]
  rfl

/-- **The rows are read back.** -/
theorem rowsFrom_migrationRows (s : PlanStep) (steps : List PlanStep) (ts : List Token) :
    rowsFrom (some []) (tokensOf (migrationRows e (s :: steps)) ++ ts) = some ((s :: steps).map (rowOf e)) := by
  induction steps generalizing s with
  | nil => exact rowsFrom_row e s "\x7d\x7d" [] ts
  | cons next rest ih =>
    rw [migrationRows, append_assoc, singleton_append, rowsFrom_row, map_cons]
    · show (rowsFrom (some []) (tokensOf (migrationRows e (next :: rest)) ++ ts)).map _ = _
      rw [ih]
      rfl
    · simp

/-! ### The list -/

theorem ofRow?_rowOf (s : PlanStep) : EmbeddedStep.ofRow? (rowOf e s) = some (.ofStep e s) := by
  cases e <;> simp [EmbeddedStep.ofRow?, rowOf, stepFields, EmbeddedStep.ofStep, lookup_cons]

theorem mapM_ofRow? (steps : List PlanStep) :
    (steps.map (rowOf e)).mapM EmbeddedStep.ofRow? = some (steps.map (.ofStep e)) := by
  induction steps with
  | nil => rfl
  | cons s steps ih =>
    rw [map_cons, mapM_cons, ofRow?_rowOf, ih]
    rfl

/-- The names of the fields in the order in which they are declared. -/
def fieldNames : Engine → List (List Char)
  | .mysql => ["table".toList, "create".toList]
  | .mssql => ["table".toList, "exists".toList, "create".toList]

theorem isPerm_rowOf (s : PlanStep) : ((rowOf e s).map Prod.fst).isPerm (fieldNames e) = true := by
  cases e with
  | mysql =>
    have hkeys : (rowOf .mysql s).map Prod.fst = ["create".toList, "table".toList] := by simp [rowOf, stepFields]
    rw [hkeys]
    decide
  | mssql =>
    have hkeys : (rowOf .mssql s).map Prod.fst = ["create".toList, "exists".toList, "table".toList] := by simp [rowOf, stepFields]
    rw [hkeys]
    decide

/-- The lines of the variable behind its first one. -/
def variableRest (e : Engine) (steps : List PlanStep) : List String := (migrationsVariable e steps).lines.tail

/-- The lines that declare the fields. -/
theorem fieldsFrom_declared (ts : List Token) :
    fieldsFrom (tokensOf (indent (if e.conditionalCreate then ["table  string", "create string"]
      else ["table  string", "exists string", "create string"])) ++ .mark '\x7d' :: ts) = some (fieldNames e, ts) := by
  cases e with
  | mysql =>
    have htokens : tokensOf (indent ["table  string", "create string"]) = [.word "table".toList, .word "string".toList,
      .word "create".toList, .word "string".toList] := by decide
    show fieldsFrom (tokensOf (indent ["table  string", "create string"]) ++ _) = _
    rw [htokens]
    rfl
  | mssql =>
    have htokens : tokensOf (indent ["table  string", "exists string", "create string"]) = [.word "table".toList,
      .word "string".toList, .word "exists".toList, .word "string".toList, .word "create".toList,
      .word "string".toList] := by decide
    show fieldsFrom (tokensOf (indent ["table  string", "exists string", "create string"]) ++ _) = _
    rw [htokens]
    rfl

/-- The rows behind the brace that closes the type. -/
theorem exists_rows (steps : List PlanStep) (ts : List Token) :
    ∃ rest, tokensOf (if steps.isEmpty then ["\x7d\x7b\x7d"] else "\x7d\x7b\x7b" :: migrationRows e steps) ++ ts =
      .mark '\x7d' :: .mark '\x7b' :: rest ∧ rowsFrom none rest = some (steps.map (rowOf e)) := by
  cases steps with
  | nil => exact ⟨.mark '\x7d' :: ts, rfl, rfl⟩
  | cons s steps =>
    refine ⟨.mark '\x7b' :: (tokensOf (migrationRows e (s :: steps)) ++ ts), ?_, rowsFrom_migrationRows e s steps ts⟩
    show tokensOf ("\x7d\x7b\x7b" :: migrationRows e (s :: steps)) ++ ts = _
    rw [tokensOf_cons, append_assoc]
    rfl

/-- **The list is read back** from the lines of the variable, whatever follows. -/
theorem readList?_variableRest (steps : List PlanStep) (ts : List Token) :
    readList? (.mark '\x7b' :: (tokensOf (variableRest e steps) ++ ts)) = some (steps.map (.ofStep e)) := by
  have hall : ((steps.map (rowOf e)).all fun row => (row.map Prod.fst).isPerm (fieldNames e)) = true := by
    rw [all_map, all_eq_true]
    exact fun s _ => isPerm_rowOf e s
  obtain ⟨rest, hrest, hrows⟩ := exists_rows e steps ts
  have hlines : tokensOf (variableRest e steps) ++ ts = tokensOf (indent (if e.conditionalCreate then
      ["table  string", "create string"] else ["table  string", "exists string", "create string"])) ++
        .mark '\x7d' :: .mark '\x7b' :: rest := by
    rw [← hrest, ← append_assoc, ← tokensOf_append]
    rfl
  rw [hlines, readList?, fieldsFrom_declared]
  show (rowsFrom none rest).bind _ = _
  rw [hrows]
  show ite _ _ _ = _
  rw [if_pos hall, mapM_ofRow?]

/-! ### Finding the variable -/

/-- The lines before the variable are passed over. -/
theorem readMigrations?_of_codeLines {code : String} (before after : List (List Char)) (e : Engine)
    (steps : List PlanStep) (hbefore : ∀ line ∈ before, hasLead variableLead line = false)
    (hcode : codeLines code = before ++ (migrationsVariable e steps).lines.flatMap codeLines ++ after) :
    readMigrations? code = some (steps.map (.ofStep e)) := by
  have hlines : (migrationsVariable e steps).lines.flatMap codeLines =
      "var migrations = []struct \x7b".toList :: (variableRest e steps).flatMap codeLines := by
    rfl
  have hdrop : (codeLines code).dropWhile (!hasLead variableLead ·) =
      "var migrations = []struct \x7b".toList :: ((variableRest e steps).flatMap codeLines ++ after) := by
    rw [hcode, hlines, append_assoc, dropWhile_append_of_pos, cons_append, dropWhile_cons_of_neg]
    · decide
    · intro line hline
      rw [hbefore line hline]
      rfl
  have hfirst : tokens ("var migrations = []struct \x7b".toList.drop variableLead.length) =
      [.mark '[', .mark ']', .word "struct".toList, .mark '\x7b'] := by decide
  have htokens : variableTokens code =
      .mark '[' :: .mark ']' :: .word "struct".toList :: .mark '\x7b' ::
        (tokensOf (variableRest e steps) ++ after.flatMap tokens) := by
    rw [variableTokens, hdrop]
    show tokens ("var migrations = []struct \x7b".toList.drop variableLead.length) ++ _ = _
    rw [hfirst, flatMap_append]
    rfl
  rw [readMigrations?, htokens]
  show ite _ _ _ = _
  rw [if_pos rfl]
  exact readList?_variableRest e steps _

/-! ### The lines of the file -/

/-- A comment that is written as it is. -/
def IsPlainDoc (text : String) : Prop := IsLine text ∧ docComment? text = some ("// " ++ text ++ "\n")

instance (text : String) : Decidable (IsPlainDoc text) := inferInstanceAs (Decidable (_ ∧ _))

theorem Code.IsSentence.isPlainDoc {text : String} (h : IsSentence text.toList) : IsPlainDoc text :=
  ⟨h.isLine, h.docComment?_eq⟩

/-- A declaration that has lines, under a comment that is written as it is. -/
structure Code.Declaration.IsPlain (d : Declaration) : Prop where
  doc : ∀ text ∈ d.doc, IsPlainDoc text
  lines_ne_nil : d.lines ≠ []

/-- The lines of a declaration with its comment. -/
def declarationLines (d : Declaration) : List String := d.doc.map ("// " ++ ·) ++ d.lines

theorem join_doc_append (doc : List String) {lines : List String} (h : lines ≠ []) :
    String.join (doc.map fun text => "// " ++ text ++ "\n") ++ "\n".intercalate lines =
      "\n".intercalate (doc.map ("// " ++ ·) ++ lines) := by
  induction doc with
  | nil => exact String.empty_append
  | cons text doc ih =>
    have hne : doc.map ("// " ++ ·) ++ lines ≠ [] := by simp [h]
    obtain ⟨next, others, hothers⟩ := exists_cons_of_ne_nil hne
    rw [map_cons, String.join_cons, String.append_assoc, ih, map_cons, cons_append, hothers,
      String.intercalate_cons_cons]

theorem declarationText?_of_plain {d : Declaration} (h : d.IsPlain) :
    declarationText? d = some ("\n".intercalate (declarationLines d)) := by
  obtain ⟨hdoc, hlines⟩ := h
  have hmapM : d.doc.mapM docComment? = some (d.doc.map fun text => "// " ++ text ++ "\n") := by
    generalize d.doc = doc at hdoc
    induction doc with
    | nil => rfl
    | cons text doc ih =>
      obtain ⟨htext, hrest⟩ := forall_mem_cons.1 hdoc
      rw [mapM_cons, htext.2, ih hrest]
      rfl
  rw [declarationText?, hmapM, declarationLines, ← join_doc_append d.doc hlines]
  rfl

/-- The kind of the last declaration, or of the one before when there is none. -/
def lastKind (previous : Option DeclarationKind) (ds : List Declaration) : Option DeclarationKind :=
  ds.foldl (fun _ d => some d.kind) previous

theorem bodyLines?_append (previous : Option DeclarationKind) (ds es : List Declaration) :
    bodyLines? previous (ds ++ es) = (bodyLines? previous ds).bind fun first =>
      (bodyLines? (lastKind previous ds) es).map (first ++ ·) := by
  induction ds generalizing previous with
  | nil =>
    rw [nil_append, bodyLines?, Option.bind_some]
    exact Option.map_id'.symm
  | cons d ds ih =>
    rw [cons_append, bodyLines?, bodyLines?, ih]
    cases declarationText? d with
    | none => rfl
    | some text =>
      show ((bodyLines? (some d.kind) ds).bind _).bind _ = _
      cases bodyLines? (some d.kind) ds with
      | none => rfl
      | some first =>
        show ((bodyLines? (lastKind (some d.kind) ds) es).map _).bind _ = _
        rw [Option.bind_map]
        show _ = (bodyLines? (lastKind (some d.kind) ds) es).map _
        cases bodyLines? (lastKind (some d.kind) ds) es with
        | none => rfl
        | some second => simp

/-- Declarations with plain comments can be laid out; between their lines there is nothing but empty lines. -/
theorem exists_bodyLines {ds : List Declaration} (h : ∀ d ∈ ds, d.IsPlain)
    (previous : Option DeclarationKind) :
    ∃ body, bodyLines? previous ds = some body ∧
      ∀ line ∈ body.flatMap codeLines, line = [] ∨ ∃ d ∈ ds, line ∈ (declarationLines d).flatMap codeLines := by
  induction ds generalizing previous with
  | nil => exact ⟨[], rfl, by simp⟩
  | cons d ds ih =>
    obtain ⟨hplain, hrest⟩ := forall_mem_cons.1 h
    obtain ⟨body, hbody, hmem⟩ := ih hrest (some d.kind)
    have htext : codeLines ("\n".intercalate (declarationLines d)) = (declarationLines d).flatMap codeLines :=
      codeLines_intercalate (by simp [declarationLines, hplain.lines_ne_nil])
    refine ⟨_, by rw [bodyLines?, declarationText?_of_plain hplain, hbody]; rfl, ?_⟩
    intro line hline
    rw [flatMap_append, flatMap_cons, htext, mem_append, mem_append] at hline
    rcases hline with hline | hline | hline
    · split at hline
      · exact .inl (by simpa [codeLines, splitOn] using hline)
      · cases hline
    · exact .inr ⟨d, mem_cons_self, hline⟩
    · rcases hmem line hline with h | ⟨e, he, h⟩
      · exact .inl h
      · exact .inr ⟨e, mem_cons_of_mem d he, h⟩

/-! ### The database package -/

/-- The comments of the database package, which are the same for all services. -/
def databaseDocs : List String :=
  ([initFunction .mysql, waitFunction, getFunction, rowsFunction .mysql, migrationsVariable .mysql []] ++
    mysqlNameDeclarations {}).flatMap (·.doc)

theorem isPlainDoc_databaseDocs : ∀ text ∈ databaseDocs, IsPlainDoc text := by
  have hall : ∀ text ∈ databaseDocs, IsSentence text.toList := by
    simp only [databaseDocs, initFunction, waitFunction, getFunction, rowsFunction, migrationsVariable, mysqlNameDeclarations,
      function, cons_append, nil_append, flatMap_cons, flatMap_nil, forall_mem_cons]
    -- As lists of characters the comments need not be decoded.
    repeat rw [String.toList_ofList]
    decide +kernel
  exact fun text htext => (hall text htext).isPlainDoc

/-- A declaration that the reader passes over. -/
structure IsPassed (d : Declaration) : Prop where
  doc : ∀ text ∈ d.doc, IsPlainDoc text
  lines_ne_nil : d.lines ≠ []
  lines : ∀ line ∈ d.lines, IsLine line ∧ hasLead variableLead line.toList = false

theorem IsPassed.isPlain {d : Declaration} (h : IsPassed d) : d.IsPlain := ⟨h.doc, h.lines_ne_nil⟩

theorem IsPassed.of_all {d : Declaration} (hdoc : d.doc ⊆ databaseDocs)
    (hlines : (!d.lines.isEmpty && d.lines.all fun l => IsLine l ∧ hasLead variableLead l.toList = false) = true) :
    IsPassed d where
  doc := fun text htext => isPlainDoc_databaseDocs text (hdoc htext)
  lines_ne_nil := by simpa using (Bool.and_eq_true_iff.1 hlines).1
  lines := fun line hline => of_decide_eq_true (all_eq_true.1 (Bool.and_eq_true_iff.1 hlines).2 line hline)

/-- All lines of such a declaration are passed over. -/
theorem IsPassed.hasLead_codeLines {d : Declaration} (h : IsPassed d) :
    ∀ line ∈ (declarationLines d).flatMap codeLines, hasLead variableLead line = false := by
  intro line hline
  obtain ⟨s, hs, hline⟩ := mem_flatMap.1 hline
  rcases mem_append.1 hs with hs | hs
  · obtain ⟨text, htext, rfl⟩ := mem_map.1 hs
    rw [(IsLine.append (by decide) (h.doc text htext).1).codeLines, mem_singleton, String.toList_append] at hline
    rw [hline]
    rfl
  · obtain ⟨hisLine, hlead⟩ := h.lines s hs
    rw [hisLine.codeLines, mem_singleton] at hline
    rw [hline]
    exact hlead

/-- The lines of a block are further in, so that none of them is the variable. -/
theorem isPassed_function {signature : String} {doc body : List String} {uses : List Package}
    (hdoc : doc ⊆ databaseDocs) (hsignature : IsLine signature) (hbody : ∀ line ∈ body, IsLine line) :
    IsPassed (function signature doc uses body) where
  doc := fun text htext => isPlainDoc_databaseDocs text (hdoc htext)
  lines_ne_nil := by simp [function, block, blockWith]
  lines := by
    intro line hline
    refine ⟨isLine_of_mem_block (IsLine.append (by decide) hsignature) hbody line hline, ?_⟩
    simp only [function, block, blockWith, indent, cons_append, mem_cons, mem_append, mem_map,
      not_mem_nil, or_false] at hline
    rcases hline with rfl | ⟨inner, -, rfl⟩ | rfl
    · rw [String.append_assoc, String.toList_append]
      rfl
    · rw [indentLine]
      split
      · rfl
      · rw [String.toList_append]
        rfl
    · rfl

theorem isPassed_nameDeclarations (c : Connection) : ∀ d ∈ nameDeclarations e c, IsPassed d := by
  have henvironment : ∀ key default, IsLine (environmentOr key default) := fun key default =>
    IsLine.call (by decide) (by simp [IsLine.quotedOctets, lit, IsLine.quoted])
  cases e with
  | mysql =>
    refine forall_mem_cons.2 ⟨?_, forall_mem_cons.2 ⟨?_, forall_mem_singleton.2 ?_⟩⟩
    · refine ⟨fun text htext => isPlainDoc_databaseDocs text ?_, cons_ne_nil _ _,
        forall_mem_singleton.2 ⟨?_, ?_⟩⟩
      · rw [mem_singleton.1 htext]
        decide
      · exact IsLine.append (by decide) (IsLine.quotedOctets _)
      · rw [String.toList_append]
        rfl
    · exact .of_all (by decide) (by decide +kernel)
    · exact .of_all (by decide) (by decide +kernel)
  | mssql =>
    refine forall_mem_cons.2 ⟨isPassed_function (by decide) (by decide) ?_, forall_mem_singleton.2 ?_⟩
    · refine forall_mem_append.2 ⟨forall_mem_append.2 ⟨?_, ?_⟩, by simp; decide⟩
      · refine forall_mem_cons.2 ⟨by decide, forall_mem_cons.2 ⟨?_, forall_mem_singleton.2 (by decide)⟩⟩
        exact IsLine.call (by decide) (by simp [lit, IsLine.quoted, henvironment])
      · refine isLine_of_mem_keyed (by decide) ?_
        simp only [forall_mem_cons]
        refine ⟨⟨by decide, IsLine.quoted _⟩, ⟨by decide, ?_⟩, ⟨by decide, ?_⟩, ⟨by decide, by decide⟩, by simp⟩
        · exact IsLine.call (by decide) (by simp [henvironment])
        · exact IsLine.call (by decide) (by simp [henvironment])
    · exact .of_all (by decide) (by decide +kernel)

/-- What stands before the variable in the database package. -/
def declarationsBefore (e : Engine) (c : Connection) : List Declaration :=
  [databaseVariables, initFunction e, connectFunction e, waitFunction, getFunction, rowsFunction e] ++
    nameDeclarations e c

theorem isPassed_declarationsBefore (c : Connection) : ∀ d ∈ declarationsBefore e c, IsPassed d := by
  have hvariables : IsPassed databaseVariables := .of_all (by decide) (by decide +kernel)
  have hinit : IsPassed (initFunction e) :=
    isPassed_function (by decide) (by decide) (by cases e <;> decide +kernel)
  have hconnect : IsPassed (connectFunction e) :=
    isPassed_function (by decide) (by decide) (by cases e <;> decide +kernel)
  have hwait : IsPassed waitFunction := isPassed_function (by decide) (by decide) (by decide +kernel)
  have hget : IsPassed getFunction := isPassed_function (by decide) (by decide) (by decide +kernel)
  have hrows : IsPassed (rowsFunction e) :=
    isPassed_function (by decide) (by decide) (by cases e <;> decide +kernel)
  refine forall_mem_append.2 ⟨?_, isPassed_nameDeclarations e c⟩
  simp only [forall_mem_cons]
  exact ⟨hvariables, hinit, hconnect, hwait, hget, hrows, by simp⟩

/-- The import lines are passed over, too. -/
theorem hasLead_importLines (settings : Settings) (packages : List Package) :
    ∀ line ∈ (importLines settings packages).flatMap codeLines, hasLead variableLead line = false := by
  intro line hline
  obtain ⟨s, hs, hline⟩ := mem_flatMap.1 hline
  rw [importLines] at hs
  have hspec : ∀ lead p, IsLine lead → codeLines (lead ++ Package.importSpec settings p) =
      [lead.toList ++ (p.importSpec settings).toList] := by
    intro lead p hlead
    rw [(hlead.append (isLine_importSpec settings p)).codeLines, String.toList_append]
  split at hs
  · cases hs
  · rcases mem_pair.1 hs with rfl | rfl
    · rw [hspec _ _ (by decide), mem_singleton] at hline
      rw [hline]
      rfl
    · rw [mem_singleton.1 hline]
      rfl
  · simp only [cons_append, mem_cons, mem_append, indent, map_map, mem_map, not_mem_nil, or_false] at hs
    rcases hs with rfl | ⟨p, -, rfl⟩ | rfl | rfl
    · rw [mem_singleton.1 hline]
      rfl
    · rw [Function.comp_apply, indentLine, if_neg (importSpec_ne_empty settings p), hspec _ _ (by decide),
        mem_singleton] at hline
      rw [hline]
      rfl
    · rw [mem_singleton.1 hline]
      rfl
    · rw [mem_singleton.1 hline]
      rfl

theorem isPlain_migrationsVariable (steps : List PlanStep) : (migrationsVariable e steps).IsPlain where
  doc := fun text htext =>
    isPlainDoc_databaseDocs text (mem_flatMap.2 ⟨migrationsVariable .mysql [], by simp, htext⟩)
  lines_ne_nil := cons_ne_nil _ _

theorem isPlain_migrateFunction : (migrateFunction e).IsPlain where
  doc := by simp [migrateFunction, function]
  lines_ne_nil := cons_ne_nil _ _

/-- **The package is made and read back.** Whatever the steps are, the file of the database package can be rendered
    under any header that is accepted, and its code holds the steps. -/
theorem exists_render_databaseFile {settings : Settings} {header : String}
    (hheader : header? settings.header = some header) (e : Engine) (c : Connection) (steps : List PlanStep) :
    ∃ code, (databaseFile e c steps).render? settings = some (header ++ code) ∧
      readMigrations? code = some (steps.map (.ofStep e)) := by
  have hpassed := isPassed_declarationsBefore e c
  obtain ⟨first, hfirst, hfirstLines⟩ := exists_bodyLines (fun d hd => (hpassed d hd).isPlain) none
  obtain ⟨last, hlast, -⟩ := exists_bodyLines (forall_mem_singleton.2 (isPlain_migrateFunction e))
    (some (migrationsVariable e steps).kind)
  -- The comment of the variable sets it apart by an empty line.
  have hvariable : bodyLines? (lastKind none (declarationsBefore e c))
      (migrationsVariable e steps :: [migrateFunction e]) =
        some ("" :: "\n".intercalate (declarationLines (migrationsVariable e steps)) :: last) := by
    rw [bodyLines?, declarationText?_of_plain (isPlain_migrationsVariable e steps), hlast]
    cases e <;> rfl
  have hbody : bodyLines? none (databaseFile e c steps).declarations =
      some (first ++ "" :: "\n".intercalate (declarationLines (migrationsVariable e steps)) :: last) := by
    show bodyLines? none (declarationsBefore e c ++ [migrationsVariable e steps, migrateFunction e]) = _
    rw [bodyLines?_append, hfirst, hvariable]
    rfl
  refine ⟨"\n".intercalate (["package db", ""] ++ importLines settings (databaseFile e c steps).imports ++
    (first ++ "" :: "\n".intercalate (declarationLines (migrationsVariable e steps)) :: last)) ++ "\n", ?_, ?_⟩
  · rw [render?, hheader, hbody, ← String.append_assoc]
    rfl
  · refine readMigrations?_of_codeLines
      ((["package db", ""] ++ importLines settings (databaseFile e c steps).imports ++ first ++
        "" :: (migrationsVariable e steps).doc.map ("// " ++ ·)).flatMap codeLines)
      (last.flatMap codeLines ++ [[]]) e steps ?_ ?_
    · simp only [flatMap_append, forall_mem_append]
      refine ⟨⟨⟨by decide, hasLead_importLines settings _⟩, fun line hline => ?_⟩, ?_⟩
      · rcases hfirstLines line hline with rfl | ⟨d, hd, hline⟩
        · rfl
        · exact (hpassed d hd).hasLead_codeLines line hline
      · exact (by decide : ∀ line ∈ ["", "// migrations holds the schema statements in declaration order."].flatMap
          codeLines, hasLead variableLead line = false)
    · have htext : codeLines ("\n".intercalate (declarationLines (migrationsVariable e steps))) =
          ((migrationsVariable e steps).doc.map ("// " ++ ·)).flatMap codeLines ++
            (migrationsVariable e steps).lines.flatMap codeLines := by
        rw [codeLines_intercalate (by simp [declarationLines, migrationsVariable]), declarationLines,
          flatMap_append]
      rw [codeLines_joined (by simp)]
      simp only [flatMap_append, flatMap_cons, htext, append_assoc]

/-! ### The artifact -/

/-- The file holds the statements of the plan for an engine, in order, and nothing else. -/
def Embeds (settings : Settings) (e : Engine) (migrations : List Migration) (a : Artifact) : Prop :=
  (a.code? settings).bind readMigrations? = some ((e.plan migrations).map (EmbeddedStep.ofStep e))

theorem embeds_of_render {settings : Settings} {e : Engine} {c : Connection} {migrations : List Migration} {a : Artifact}
    (h : (databaseFile e c (e.plan migrations)).render? settings = some a.content) : Embeds settings e migrations a := by
  obtain ⟨header, -, hheader, -, -⟩ := exists_code_of_render h
  obtain ⟨code, hrender, hread⟩ := exists_render_databaseFile hheader e c (e.plan migrations)
  rw [Embeds, Artifact.code?_eq_some hheader (Option.some.inj (h.symm.trans hrender))]
  exact hread

/-- The file of the database package is made by its own task. -/
theorem source_of_path {g : Generator} {task : SourceTask} (htask : task ∈ g.tasks) (hpath : task.path = "db/db.go") :
    task.source = g.databaseSource := by
  simp only [Generator.tasks, mem_append, mem_cons, not_mem_nil, or_false, mem_map] at htask
  rcases htask with (rfl | rfl | rfl | rfl | rfl) | ⟨group, -, rfl⟩
  · exact absurd hpath (by decide : "app.go" ≠ "db/db.go")
  · rfl
  · exact absurd hpath (by decide : "auth/auth.go" ≠ "db/db.go")
  · exact absurd hpath (by decide : "routes/auth.go" ≠ "db/db.go")
  · exact absurd hpath (by decide : "routes/index.go" ≠ "db/db.go")
  · have hhead := congrArg (fun path => path.toList.head?) hpath
    simp [Generator.groupPath] at hhead

/-- **The embedded migrations.** For every service with an engine, whatever its migrations are, the file of the
    database package can be made as soon as there is a connection and the header is accepted, and in every run it is
    there and holds the plan. -/
theorem embeds_plan (settings : Settings) (s : Service) (e : Engine)
    (he : Engine.ofName? s.database.dialect = some e) :
    ∃ g, Generator.ofService settings s = .ok g ∧
      (∀ c, e.connection s.database.url = .ok c → (header? settings.header).isSome →
        ∃ a, g.render ⟨"db/db.go", g.databaseSource⟩ = .ok (some a) ∧ Embeds settings e s.migrations a) ∧
      ∀ stopped as, g.artifacts stopped = .ok as →
        (∃ a ∈ as, a.path = "db/db.go") ∧ ∀ a ∈ as, a.path = "db/db.go" → Embeds settings e s.migrations a := by
  have hdb : s.hasDatabase := by
    rw [Service.hasDatabase, bne_iff_ne]
    intro hempty
    rw [hempty] at he
    cases he
  obtain ⟨g, hg⟩ : ∃ g, Generator.ofService settings s = .ok g := by
    rw [Generator.ofService, if_pos hdb, Engine.ofName, he]
    exact ⟨_, rfl⟩
  obtain ⟨rfl, rfl, htarget, -⟩ := of_ofService hg
  rw [he] at htarget
  refine ⟨g, hg, ?_, ?_⟩
  · intro c hc hheader
    obtain ⟨header, hheader⟩ := Option.isSome_iff_exists.1 hheader
    obtain ⟨code, hrender, -⟩ := exists_render_databaseFile hheader e c (e.plan g.service.migrations)
    have hsource : g.databaseSource = .ok (some (databaseFile e c (e.plan g.service.migrations))) := by
      simp only [Generator.databaseSource, htarget, hc]
    exact ⟨⟨"db/db.go", header ++ code⟩, Generator.render_eq_ok_some_iff.2 ⟨_, hsource, hrender, rfl⟩,
      embeds_of_render hrender⟩
  · intro stopped as has
    have hrun : GeneratedFrom g.settings g.service g as := ⟨hg, stopped, has⟩
    obtain ⟨c, hsource⟩ := hrun.exists_databaseSource htarget
    have htask : ⟨"db/db.go", g.databaseSource⟩ ∈ g.tasks := List.mem_append_left _ (by simp)
    refine ⟨?_, ?_⟩
    · obtain ⟨a, ha, hpath, -⟩ := hrun.exists_artifact htask hsource
      exact ⟨a, ha, hpath⟩
    · intro a ha hpath
      rcases (Generator.mem_artifacts_iff has).1 ha with ⟨task, htask, hrender⟩ | rfl
      · obtain ⟨file, hfile, hcontent, hpath'⟩ := Generator.render_eq_ok_some_iff.1 hrender
        rw [source_of_path htask (hpath'.symm.trans hpath), hsource] at hfile
        obtain rfl := Option.some.inj (Except.ok.inj hfile)
        exact embeds_of_render hcontent
      · exact absurd hpath (by decide : "go.mod" ≠ "db/db.go")

/-- A service whose tables and columns are named and typed by texts that literals have to escape. -/
def hostileNames : Service where
  database := { dialect := "mssql" }
  migrations :=
    [ { table := "a\"\x7d, \x7b\n\tcreate: \"b", fields := some [{ name := "\\x41", type := "\x07\x7f" }] },
      { table := "it's\u2028𝔘 é", fields := some [{ name := "id", type := "INT", primaryKey := true }, {}] } ]

theorem embeds_hostileNames :
    ∃ g as, Generator.ofService { header := "" } hostileNames = .ok g ∧ g.artifacts false = .ok as ∧
      (∃ a ∈ as, a.path = "db/db.go") ∧
      ∀ a ∈ as, a.path = "db/db.go" → Embeds { header := "" } .mssql hostileNames.migrations a := by
  obtain ⟨g, hg, -, hruns⟩ := embeds_plan { header := "" } hostileNames .mssql (by decide)
  have hok : (g.artifacts false).toBool = true := by
    rw [← Except.ok.inj hg]
    decide +kernel
  obtain ⟨as, has⟩ := exists_ok_of_toBool hok
  exact ⟨g, as, hg, has, hruns false as has⟩

end ServiceCompiler
