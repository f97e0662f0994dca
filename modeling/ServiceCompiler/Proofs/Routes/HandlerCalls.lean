import ServiceCompiler.Proofs.Code.EmbeddedMigrations
import ServiceCompiler.Proofs.Code.SentCalls
import ServiceCompiler.Proofs.Sql.Markers

namespace ServiceCompiler

open Code Text List

/-!
# The calls of handlers

What the body of a handler sends: as many arguments as the statement has marks, in their order and, where arguments
have names, under these names.

* `SentCall.Agrees` — statement and arguments of a call fit.
* `SentCall.InsertsRow` — a call that inserts a row; `SentCall.Inserts` when it holds the fields of a submitted document,
  each in its column.
* `exists_writes_handlerBody` — the call of a route, which is the only one of its body.
-/

variable {values : List (List Token)} {b : BoundStatement} (e : Engine)

/-! ### What a call hands over -/

namespace Code.SentCall

/-- The arguments behind the statement are those that the statement takes. -/
def Agrees (e : Engine) (call : SentCall) : Prop :=
  ∃ (statement : String) (names : List String) (values : List (List Token)), names.length = values.length ∧
    call.arguments =
      [.word "ctx".toList] :: [.text (Octets.ofString statement)] :: zipWith (boundTokens e) names values ∧
    e.Binds statement names

/-- The call inserts a row into a table: the columns, their placeholders and the values stand in the same order. -/
def InsertsRow (e : Engine) (table : String) (columns : List String) (values : List (List Token)) (call : SentCall) : Prop :=
  columns.length = values.length ∧ call.method = "ExecContext" ∧ ∃ statement : String,
    call.arguments =
      [.word "ctx".toList] :: [.text (Octets.ofString statement)] :: zipWith (boundTokens e) columns values ∧
    readInsert? statement.toList = some ⟨table, columns, columns.map e.placeholder⟩

end Code.SentCall

/-- The tokens of the value that a submitted document has for a field. -/
def documentTokens (field : String) : List Token :=
  [Token.word "doc".toList] ++ (Token.mark '[' :: [Token.text (Octets.ofString field)] ++ [Token.mark ']'])

/-- The call inserts the fields of a route into its collection: the columns are the fields without later repeats, and
    each column gets the value that the document has for it. -/
def Code.SentCall.Inserts (e : Engine) (r : Route) (call : SentCall) : Prop :=
  ∃ columns : List String, FirstAppearances r.bodyFields columns ∧
    call.InsertsRow e r.collection columns (columns.map documentTokens)

theorem agrees_sentCall {e : Engine} (hb : e.Binds b.statement (b.arguments.map (·.parameter)))
    (hvalues : ReadAs b.arguments values) (method : String) :
    (b.sentCall e method values).Agrees e := by
  refine ⟨b.statement, b.arguments.map (·.parameter), values, ?_, ?_, hb⟩
  · rw [length_map]
    exact hvalues.length_eq
  · rw [zipWith_map_left]
    rfl

theorem insertsRow_sentCall {e : Engine} {table : String} (htable : IsStatementName table)
    (hstatement : b.statement = e.insert table (b.arguments.map (·.parameter)))
    (hcolumns : ∀ name ∈ b.arguments.map (·.parameter), IsStatementName name ∧ name ≠ "" ∧ IsTrimmed name.toList)
    (hvalues : ReadAs b.arguments values) :
    (b.sentCall e "ExecContext" values).InsertsRow e table (b.arguments.map (·.parameter)) values := by
  refine ⟨?_, rfl, b.statement, ?_, ?_⟩
  · rw [length_map]
    exact hvalues.length_eq
  · rw [zipWith_map_left]
    rfl
  · rw [hstatement]
    exact readInsert?_insert e htable hcolumns

/-! ### Values -/

theorem reads_documentValue (field : String) : Reads (documentValue field) (documentTokens field) := by
  have hclose : Reads "]" [.mark ']'] := Reads.plain (by decide) (by decide)
  have hall := ((Reads.lit field).append hclose (by decide)).after "doc[" (by decide) (by decide) (by decide)
  have hfront : tokens "doc[".toList = [.word "doc".toList, .mark '['] := by decide
  rw [hfront, ← String.append_assoc] at hall
  exact hall

theorem isOperand_documentTokens (field : String) : IsOperand (documentTokens field) :=
  (IsOperand.word (by decide)).append ((IsOperand.text _).isInner.bracketed (by decide) (by decide))

/-- The tokens of a parameter of the path. -/
def parameterTokens (name : String) : List Token :=
  [Token.word "c".toList, Token.mark '.', Token.word "Param".toList] ++
    (Token.mark '(' :: [Token.text (Octets.ofString name)] ++ [Token.mark ')'])

theorem reads_parameter (name : String) : Reads (call "c.Param" [lit name]) (parameterTokens name) := by
  have hfunction : tokens "c.Param".toList = [.word "c".toList, .mark '.', .word "Param".toList] := by decide
  have hcall := Reads.call "c.Param" (by decide) (by decide) (.cons (.lit name) .nil)
  rw [hfunction, separated, intercalate_singleton] at hcall
  exact hcall

theorem isOperand_selector {first second : String} (hfirst : first ∉ sendMethods) (hsecond : second ∉ sendMethods) :
    IsOperand [.word first.toList, .mark '.', .word second.toList] :=
  ((IsOperand.word hfirst).append (.token (by simp) rfl rfl rfl)).append (.word hsecond)

theorem isOperand_parameterTokens (name : String) : IsOperand (parameterTokens name) :=
  (isOperand_selector (by decide) (by decide)).append ((IsOperand.text _).isInner.bracketed (by decide) (by decide))

/-! ### Bodies of handlers -/

/-- What is done about an error. -/
theorem writes_onError : Writes (onError passError) [] := .fixed (by decide)

theorem writes_query (hvalues : ReadAs b.arguments values) :
    Writes (b.query e) [b.sentCall e "QueryContext" values] := by
  have hsend : Writes ["rows, err := " ++ b.send e "QueryContext"] [b.sentCall e "QueryContext" values] := by
    have h := writes_send e hvalues (by decide : "QueryContext" ∈ sendMethods) "rows, err := " "" (by decide) (by decide)
    rwa [String.append_empty] at h
  have hrows : Writes ["result, err := db.Rows(rows)"] [] := .fixed (by decide)
  exact ((hsend.append writes_onError).append hrows).append writes_onError

/-- A statement of which only the error matters. -/
theorem writes_exec (hvalues : ReadAs b.arguments values) :
    Writes (ifFails ("_, err := " ++ b.send e "ExecContext") passError) [b.sentCall e "ExecContext" values] := by
  have hsend := writes_send e hvalues (by decide : "ExecContext" ∈ sendMethods) "if _, err := " "; err != nil \x7b"
    (by decide) (by decide)
  have hhead : "if " ++ ("_, err := " ++ b.send e "ExecContext") ++ "; err != nil" ++ " \x7b" =
      "if _, err := " ++ b.send e "ExecContext" ++ "; err != nil \x7b" := by
    apply String.toList_inj.1
    simp
  rw [← hhead] at hsend
  exact hsend.block (.fixed (by decide))

theorem writes_readBody (hvalues : ReadAs b.arguments values) :
    Writes (readBody e b) [b.sentCall e "QueryContext" values] :=
  (Writes.fixed (by decide)).append (writes_query e hvalues)

theorem writes_listBody (hvalues : ReadAs b.arguments values) :
    Writes (listBody e b) [b.sentCall e "QueryContext" values] :=
  (writes_readBody e hvalues).append (.fixed (by decide))

theorem writes_getBody (hvalues : ReadAs b.arguments values) :
    Writes (getBody e b) [b.sentCall e "QueryContext" values] :=
  ((writes_readBody e hvalues).append (.fixed (by decide))).append (.fixed (by decide))

/-- An entry of a literal, its value pushed to the right. -/
theorem reads_entry {key value : String} {ts us : List Token} (hkey : Reads key ts) (hvalue : Reads value us) (n : Nat) :
    Reads (key ++ ":" ++ String.ofList (replicate n ' ') ++ value ++ ",") (ts ++ Token.mark ':' :: (us ++ [Token.mark ','])) := by
  have hblanks : IsLine (String.ofList (replicate n ' ')) := by
    rw [IsLine, String.toList_ofList]
    exact fun h => absurd (eq_of_mem_replicate h) (by decide)
  refine ⟨(((hkey.isLine.append (by decide)).append hblanks).append hvalue.isLine).append (by decide), fun rest _ => ?_⟩
  have hcolon : ∀ more : List Char, ∀ c ∈ (':' :: more).head?, isWordChar c = false := by
    rintro more c ⟨rfl⟩
    rfl
  have hcomma : ∀ c ∈ (',' :: rest).head?, isWordChar c = false := by
    rintro c ⟨rfl⟩
    rfl
  simp only [String.toList_append, String.toList_ofList, append_assoc]
  show tokens (key.toList ++ ':' :: (replicate n ' ' ++ (value.toList ++ ',' :: rest))) = _
  rw [hkey.tokens_append _ (hcolon _), tokens_mark rfl rfl (by decide), tokens_blanks, hvalue.tokens_append _ hcomma,
    tokens_mark rfl rfl (by decide)]
  simp

/-- An entry whose key and value hold no call. -/
def IsFreeEntry (entry : Entry) : Prop :=
  ∃ ts us, Reads entry.1 ts ∧ Reads entry.2 us ∧ ∀ t ∈ ts ++ us, t.isFree

theorem writes_alignColumn {entries : List Entry} (h : ∀ entry ∈ entries, IsFreeEntry entry) :
    Writes (alignColumn entries) [] := by
  refine Writes.map fun entry hentry => ?_
  obtain ⟨ts, us, hkey, hvalue, hfree⟩ := h entry hentry
  refine .line (reads_entry hkey hvalue _) ?_
  simp only [forall_mem_append, forall_mem_cons] at hfree ⊢
  exact ⟨hfree.1, rfl, hfree.2, rfl, forall_mem_nil _⟩

/-- The literal of the document holds no call. -/
theorem writes_keyed {entries : List Entry} (h : ∀ entry ∈ entries, IsFreeEntry entry) :
    Writes (keyed "doc := gin.H" entries) [] := by
  cases entries with
  | nil => exact .fixed (by decide)
  | cons first rest =>
    cases rest with
    | nil =>
      obtain ⟨ts, us, hkey, hvalue, hfree⟩ := h first mem_cons_self
      have hclose : Reads "\x7d" [.mark '\x7d'] := Reads.plain (by decide) (by decide)
      have hcolon : startsApart (": " ++ first.2) := by
        rw [startsApart, String.toList_append]
        rfl
      have hinner := hkey.append (hvalue.after ": " (by decide) (by decide) (by decide)) hcolon
      have hline := (hinner.append hclose (by decide)).after "doc := gin.H\x7b" (by decide) (by decide) (by decide)
      have hfront : ∀ t ∈ tokens "doc := gin.H\x7b".toList ++ tokens ": ".toList, t.isFree := by decide
      have heq : keyed "doc := gin.H" [first] =
          ["doc := gin.H\x7b" ++ (first.1 ++ (": " ++ first.2) ++ "\x7d")] := by
        show [("doc := gin.H" ++ "\x7b") ++ (first.1 ++ ": " ++ first.2) ++ "\x7d"] = _
        simp only [String.append_assoc]
        rfl
      rw [heq]
      refine .line hline ?_
      simp only [forall_mem_append] at hfree hfront ⊢
      exact ⟨hfront.1, ⟨hfree.1, hfront.2, hfree.2⟩, forall_mem_singleton.2 rfl⟩
    | cons second rest =>
      refine (Writes.fixed (by decide) : Writes ["doc := gin.H" ++ "\x7b"] []).append
        ((Writes.indent (Writes.flatMap fun column hcolumn => writes_alignColumn fun entry hentry => h entry ?_)).append
          (.fixed (by decide)))
      rcases mem_of_mem_columnsFrom hcolumn hentry with hnone | hentry
      · cases hnone
      · exact (mergeSort_perm _ _).mem_iff.1 hentry

theorem writes_insertBody (r : Route) (hvalues : ReadAs b.arguments values) :
    Writes (insertBody e r b) [b.sentCall e "ExecContext" values] := by
  have hmethod : "ExecContext" ∈ sendMethods := by decide
  have hdocument : Writes (keyed "doc := gin.H" ((distinctBodyFields r).map fun f => (lit f, "body[" ++ lit f ++ "]"))) [] := by
    refine writes_keyed (forall_mem_map.2 fun field _ => ?_)
    have hclose : Reads "]" [.mark ']'] := Reads.plain (by decide) (by decide)
    have hvalue := ((Reads.lit field).append hclose (by decide)).after "body[" (by decide) (by decide) (by decide)
    rw [← String.append_assoc] at hvalue
    have hfront : ∀ t ∈ tokens "body[".toList, t.isFree := by decide
    refine ⟨_, _, .lit field, hvalue, ?_⟩
    simp only [forall_mem_append, forall_mem_singleton]
    exact ⟨rfl, hfront, rfl, rfl⟩
  have hlead := ((Writes.fixed (by decide) : Writes ["var body map[string]any"] []).append
    (.fixed (by decide) : Writes (ifFails "err := c.ShouldBindJSON(&body)"
      [respond "StatusBadRequest" (reply "error" "err.Error()"), "return"]) [])).append hdocument |>.append
    (.fixed (by decide) : Writes ["ctx := c.Request.Context()"] [])
  refine hlead.append ?_
  cases e with
  | mysql =>
    have hsend := writes_send .mysql hvalues hmethod "res, err := " "" (by decide) (by decide)
    rw [String.append_empty] at hsend
    exact (((((hsend.append writes_onError).append (.fixed (by decide))).append writes_onError).append
      (.fixed (by decide))).append (.fixed (by decide))).append (.fixed (by decide))
  | mssql =>
    exact (writes_exec .mssql hvalues).append (.fixed (by decide))

/-! ### Handlers -/

theorem readAs_fields (fields : List String) :
    ReadAs (fields.map fun f => ⟨f, documentValue f⟩) (fields.map documentTokens) := by
  induction fields with
  | nil => exact .nil
  | cons f fields ih => exact .cons ⟨reads_documentValue f, isOperand_documentTokens f⟩ ih

/-- **The call of a route** that lines can give: its arguments fit the statement, and the fields that are inserted fit
    the columns. -/
theorem exists_writes_handlerBody {r : Route} (hr : r.WellFormed) (hplain : r.HasPlainBody)
    (hb : handlerStatement? e r = some b) :
    ∃ call : SentCall, Writes (handlerBody e r b) [call] ∧ call.Agrees e ∧ (r.action = .insert → call.Inserts e r) := by
  have htable := hr.collection.isStatementName
  rw [handlerStatement?] at hb
  rcases hr.action with haction | haction | haction
  · rw [haction] at hb
    obtain rfl := Option.some.inj hb
    -- All rows: there is nothing to hand over.
    have hvalues : ReadAs [] [] := .nil
    refine ⟨_, ?_, agrees_sentCall (b := ⟨_, _⟩) (binds_selectAll e htable) hvalues "QueryContext", by simp [haction]⟩
    rw [handlerBody, haction]
    exact writes_listBody e hvalues
  · rw [haction] at hb
    obtain rfl := Option.some.inj hb
    -- One row: the parameter of the path, whatever its name there, is handed over as the identity.
    have hvalues : ReadAs [⟨"id", call "c.Param" [lit (idParameter r)]⟩] [parameterTokens (idParameter r)] :=
      .cons ⟨reads_parameter _, isOperand_parameterTokens _⟩ .nil
    refine ⟨_, ?_, agrees_sentCall (b := ⟨_, _⟩) (binds_selectById e htable) hvalues "QueryContext", by simp [haction]⟩
    rw [handlerBody, haction]
    exact writes_getBody e hvalues
  · rw [haction] at hb
    -- A new row: statement and arguments are both made from the fields without repeats.
    have hb := Option.some.inj hb
    have hstatement : b.statement = e.insert r.collection (distinctBodyFields r) := congrArg (·.statement) hb.symm
    have harguments : b.arguments = (distinctBodyFields r).map fun f => ⟨f, documentValue f⟩ :=
      congrArg (·.arguments) hb.symm
    have hparameters : b.arguments.map (·.parameter) = distinctBodyFields r := by
      rw [harguments, map_map]
      exact map_id _
    have hvalues : ReadAs b.arguments ((distinctBodyFields r).map documentTokens) := harguments ▸ readAs_fields _
    have hcolumns : ∀ f ∈ distinctBodyFields r, IsStatementName f ∧ f ≠ "" ∧ IsTrimmed f.toList := by
      intro f hf
      have hmem : f ∈ r.bodyFields := mem_eraseDups.1 hf
      obtain ⟨htrimmed, hne, -⟩ := hr.bodyFields f hmem
      exact ⟨hplain f hmem, hne, htrimmed⟩
    have hbinds : e.Binds b.statement (b.arguments.map (·.parameter)) := by
      rw [hstatement, hparameters]
      exact binds_insert e htable fun f hf => (hcolumns f hf).1
    have hrow := insertsRow_sentCall htable (by rw [hstatement, hparameters]) (hparameters.symm ▸ hcolumns) hvalues
    rw [hparameters] at hrow
    refine ⟨_, ?_, agrees_sentCall hbinds hvalues "ExecContext", fun _ => ⟨_, firstAppearances_eraseDups _, hrow⟩⟩
    rw [handlerBody, haction]
    exact writes_insertBody e r hvalues

end ServiceCompiler
