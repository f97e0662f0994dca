import ServiceCompiler.Proofs.Document.Token

namespace ServiceCompiler.Document

open Lexer List

/-!
# Tokens of the block form

The text of a document in the block form is read as the tokens that its tree describes.  A value behind its
key or dash ends with its line; a block begins at its column and ends in front of the first line further
out.

* `yamlKinds` — the tokens of a document.
* `Standing.Reaches` — the lexer gets to the next line with the given tokens.
* `reaches_inline`, `reaches_value` — what is read of a value on its line, and of any value.
* `readsBlocks` — every block is read as its tokens, whatever the width of its indentation.
* `yaml_finishes` — the tokens of a whole text.
-/

variable {v : Level}

open Cursor

/-! ### The tokens of a document -/

mutual

/-- The tokens of a document in the block form. -/
def yamlKinds : Document → List TokenKind
  | .flag b => [.scalar true (if b then "true" else "false")]
  | .number n => [.scalar true (Text.decimalInt n)]
  | .text s => [.scalar (isPlainStyle s) s]
  | .missingList => [.flowSequenceStart, .flowSequenceEnd]
  | .list [] => [.flowSequenceStart, .flowSequenceEnd]
  | .list (d :: rest) => .blockSequenceStart :: yamlItemKinds (d :: rest) ++ [.blockEnd]
  | .record [] => [.flowMappingStart, .flowMappingEnd]
  | .record (m :: rest) => .blockMappingStart :: yamlMemberKinds (m :: rest) ++ [.blockEnd]

def yamlItemKinds : List Document → List TokenKind
  | [] => []
  | d :: rest => .blockEntry :: yamlKinds d ++ yamlItemKinds rest

def yamlMemberKinds : List (String × Document) → List TokenKind
  | [] => []
  | (key, d) :: rest => [.key, .scalar true key, .value] ++ yamlKinds d ++ yamlMemberKinds rest

end

namespace Standing

variable {r b : Standing} {ks : List TokenKind} {k n : Nat} {ds : List Char}

/-! ### Lines -/

/-- The state at the beginning of a line, behind its indentation. -/
structure AtLine (r : Standing) (column : Nat) : Prop where
  column : r.cursor.mark.column = column
  allowed : r.keyAllowed = true
  level : ∃ v : Level, r.levels = [v] ∧ Optional [v]

/-- The next line is reached, with the blocks of another state and further tokens. -/
def Reaches (r b : Standing) (ks : List TokenKind) (k : Nat) (ds : List Char) : Prop :=
  ∃ r' : Standing, Run r r' ∧ r'.AtLine k ∧ r'.cursor.rest = ds ∧ r'.kinds = b.kinds ++ ks ∧
    r'.indent = b.indent ∧ r'.outer = b.outer

theorem inFlow_of_level (h : r.levels = [v]) : r.inFlow = false := by
  rw [inFlow, h]
  rfl

theorem noted_of_level (h : r.levels = [v]) : ∃ w : Level, r.noted = [w] := by
  rw [noted, h]
  split <;> exact ⟨_, rfl⟩

/-- Behind the end of a line. -/
theorem atLine_past (h : r.levels = [v]) (hopt : Optional [v]) (k : Nat) (ds : List Char) :
    (r.past true k ds).AtLine k where
  column := Mark.column_beyond_line _ [] k
  allowed := by
    rw [past, inFlow_of_level h]
    exact Bool.or_true _
  level := ⟨v, h, hopt⟩

/-- A text as it stands on a line is read as one scalar. -/
theorem reaches_scalar (hlevel : r.levels = [v]) (hopt : Optional [v])
    (hinside : r.indent < r.cursor.mark.column) (hindent : (k : Int) ≤ r.indent) {isPlain : Bool}
    {cs written : List Char} (h : WrittenAs isPlain cs written)
    (hrest : r.cursor.rest = written ++ ('\n' :: replicate k ' ' ++ ds)) (hds : Begins ds) :
    r.Reaches r [.scalar isPlain (String.ofList cs)] k ds := by
  have hflow : r.inFlow = false := inFlow_of_level hlevel
  have hclosed : r.Closed := .inr (.inl (Int.le_of_lt hinside))
  have hopt' : Optional r.levels := hlevel ▸ hopt
  have hfree : r.FreeKey := fun _ => .inr (Int.ne_of_lt hinside)
  obtain ⟨w, hnoted⟩ := noted_of_level hlevel
  have hoptw : Optional [w] := hnoted ▸ optional_noted hopt' hfree
  have hmark : r.cursor.atDocumentMark = false := atDocumentMark_of_column (by omega)
  have hcursor : r.cursor = ⟨written ++ ('\n' :: replicate k ' ' ++ ds), r.cursor.mark⟩ := by
    rw [← hrest]
  cases h with
  | plain h =>
    have hplain : r.cursor.plain? r.inFlow (r.indent + 1) = some (cs, .breaks ['\n'] [],
        ⟨ds, r.cursor.mark.beyond (cs ++ '\n' :: replicate k ' ')⟩) := by
      rw [hflow, hcursor]
      exact plain?_text h.toIsPlainText h.ne_nil h.head_space h.head_hash (hcursor ▸ hmark) hds.stops
        (by omega) (by show _ ≤ (r.cursor.mark.column : Int); omega)
    obtain ⟨c, rest, rfl⟩ := exists_cons_of_ne_nil h.ne_nil
    have hstep := step_plain hclosed hopt' (fresh_of_freeKey hopt' hfree _) hplain
      (by rw [hrest]; simp) rfl (by rw [hflow, hrest]; exact h.starts _) (fun hdash => by
        show startsGap (rest ++ ('\n' :: replicate k ' ') ++ ds) = false
        rw [append_assoc]
        exact h.dash rest _ (by rw [hdash])) (by simpa using h.head_percent) hmark hds
    refine ⟨_, hstep.run, ?_, rfl, rfl, rfl, rfl⟩
    exact {
      column := Mark.column_beyond_line _ _ _
      allowed := rfl
      level := ⟨w, hnoted, hoptw⟩ }
  | @quoted _ quote code _ hquote hcode hcs =>
    have hquoted : r.cursor.quoted? quote = some (cs, ⟨lineGap true k ++ ds,
        r.cursor.mark.beyond (quote :: (cs.flatMap code ++ [quote]))⟩) := by
      rw [hcursor]
      exact quoted?_written hquote hcode hcs (by simp) _
    have hstep := step_quoted hclosed hopt' hquote (fresh_of_freeKey hopt' hfree _) hquoted hrest rfl hds
    exact ⟨_, hstep.run, atLine_past hnoted hoptw k ds, rfl, rfl, rfl, rfl⟩

/-- A pair of brackets behind a key. -/
theorem reaches_brackets (hlevel : r.levels = [v]) (hopt : Optional [v]) (hkey : v.key = none)
    (hallowed : r.keyAllowed = false) (hinside : r.indent < r.cursor.mark.column) {opening closing : Char}
    {start stop : TokenKind} (hopens : Opens opening start) (hshuts : Shuts closing stop)
    (hrest : r.cursor.rest = opening :: closing :: ('\n' :: replicate k ' ' ++ ds)) (hds : Begins ds) :
    r.Reaches r [start, stop] k ds := by
  have hbegins : Begins (closing :: ('\n' :: replicate k ' ' ++ ds)) := by
    cases hshuts <;> exact begins_cons (by decide) (by decide) (by decide) _
  have hnoted : r.noted = [v] := by
    rw [noted, hallowed, hlevel]
    rfl
  have hstep₁ := step_open (.inr (.inl (Int.le_of_lt hinside)))
    (hlevel ▸ hopt) (fun h => absurd (hallowed.symm.trans h) (by decide))
    (by rw [hlevel]; show 1 ≤ nestingLimit; decide) hopens false 0 hrest hbegins
  let r₁ := (behindOpen r start).past false 0 (closing :: ('\n' :: replicate k ' ' ++ ds))
  have hlevels₁ : r₁.levels = [{ start := r.kinds.length }, v] := by
    show _ :: r.noted = _
    rw [hnoted]
  have hopt₁ : Optional r₁.levels := by
    rw [hlevels₁]
    exact hopt
  have hstep₂ := step_close (.inl (by rw [inFlow, hlevels₁]; rfl))
    hopt₁ hlevels₁ (.inr hkey) hshuts true k rfl hds
  refine ⟨_, hstep₁.run.trans hstep₂.run, atLine_past rfl hopt k ds, rfl, ?_, rfl, rfl⟩
  show r.kinds ++ [start] ++ [stop] = _
  rw [append_assoc]
  rfl

end Standing

/-! ### Values on a line -/

section Inline

variable {depth step indent : Nat} {d : Document} {cs : List Char} (hd : Writable (isPrintable ·) depth d)
  (h : inline? step indent d = some cs)
include hd h

/-- What stands on one line: a text, or a pair of brackets for what is empty. -/
theorem inline_cases :
    (∃ isPlain s, WrittenAs isPlain s.toList cs ∧ yamlKinds d = [.scalar isPlain s]) ∨
    (isFilled d = false ∧ ∃ opening closing start stop, Standing.Opens opening start ∧
      Standing.Shuts closing stop ∧ cs = [opening, closing] ∧ yamlKinds d = [start, stop]) := by
  cases depth with
  | zero => exact absurd hd not_false
  | succ depth =>
    cases d with
    | flag b =>
      obtain rfl := Option.some.inj h
      exact .inl ⟨true, if b then "true" else "false", .plain (isPlainScalar_of_alphanumeric
        (by cases b <;> decide) (all_eq_true.1 (by cases b <;> decide))), rfl⟩
    | number n =>
      obtain rfl := Option.some.inj h
      obtain ⟨m, rfl⟩ := Int.eq_ofNat_of_zero_le hd.1
      exact .inl ⟨true, Text.decimal m, .plain (isPlainScalar_of_alphanumeric (Text.decimal_ne_empty m)
        fun c hc => Text.isAlphanumeric_of_mem_decimal hc), rfl⟩
    | text s =>
      obtain rfl := Option.some.inj h
      exact .inl ⟨_, s, writtenAs_textChars hd step indent, rfl⟩
    | missingList =>
      obtain rfl := Option.some.inj h
      exact .inr ⟨rfl, _, _, _, _, .sequence, .sequence, rfl, rfl⟩
    | list items =>
      cases items with
      | nil =>
        obtain rfl := Option.some.inj h
        exact .inr ⟨rfl, _, _, _, _, .sequence, .sequence, rfl, rfl⟩
      | cons d rest => exact absurd h (by simp [inline?])
    | record members =>
      cases members with
      | nil =>
        obtain rfl := Option.some.inj h
        exact .inr ⟨rfl, _, _, _, _, .mapping, .mapping, rfl, rfl⟩
      | cons m rest => exact absurd h (by simp [inline?])

/-- What stands on one line begins a token. -/
theorem line_of_inline : (∀ c ∈ cs, isLineChar c) ∧ ∃ c rest, cs = c :: rest ∧ c ≠ ' ' ∧ c ≠ '#' := by
  rcases inline_cases hd h with ⟨isPlain, s, hwritten, -⟩ | ⟨-, b, e, _, _, hb, he, rfl, -⟩
  · exact hwritten.line
  · refine ⟨?_, b, [e], rfl, ?_⟩
    · exact all_eq_true.1 (by cases hb <;> cases he <;> decide)
    · cases hb <;> decide

theorem endLine_of_inline : endLine cs = cs ++ ['\n'] := by
  rw [endLine, if_neg]
  cases hlast : cs.getLast? with
  | none => simp
  | some c =>
    have hc := isBreak_of_isLineChar ((line_of_inline hd h).1 c (mem_of_getLast? hlast))
    simp [hc]

end Inline

namespace Standing

variable {r b : Standing} {ks : List TokenKind} {k n : Nat} {ds : List Char}

/-- **A value on its line.** -/
theorem reaches_inline (hlevel : r.levels = [v]) (hopt : Optional [v])
    (hinside : r.indent < r.cursor.mark.column) (hindent : (k : Int) ≤ r.indent) {depth step indent : Nat}
    {d : Document} {cs : List Char} (hd : Writable (isPrintable ·) depth d)
    (hfilled : isFilled d = true ∨ (v.key = none ∧ r.keyAllowed = false))
    (hcs : inline? step indent d = some cs)
    (hrest : r.cursor.rest = cs ++ ('\n' :: replicate k ' ' ++ ds)) (hds : Begins ds) :
    r.Reaches r (yamlKinds d) k ds := by
  rcases inline_cases hd hcs with ⟨isPlain, s, h, hkinds⟩ |
    ⟨hempty, opening, closing, start, stop, hopens, hshuts, rfl, hkinds⟩
  · rw [hkinds]
    have hreaches := reaches_scalar hlevel hopt hinside hindent h hrest hds
    rwa [String.ofList_toList] at hreaches
  · rw [hkinds]
    obtain ⟨hkey, hallowed⟩ := hfilled.resolve_left (by rw [hempty]; decide)
    exact reaches_brackets hlevel hopt hkey hallowed hinside hopens hshuts hrest hds

/-! ### Blocks -/

/-- The state with a block opened at its column, where none is open there. -/
def opened (r : Standing) (kind : TokenKind) : Standing :=
  openedAt r r.cursor.mark.column r.kinds.length kind

section Opened

variable (kind : TokenKind)

theorem opened_of_eq (h : r.indent = r.cursor.mark.column) : r.opened kind = r := by
  rw [opened, openedAt, opensBlock, h, decide_eq_false (Int.lt_irrefl _), Bool.and_false]
  rfl

theorem opened_of_lt (hflow : r.inFlow = false) (h : r.indent < r.cursor.mark.column) :
    r.opened kind = { r with
      kinds := r.kinds ++ [kind]
      indent := r.cursor.mark.column
      outer := r.indent :: r.outer } := by
  rw [opened, openedAt, opensBlock, hflow, decide_eq_true h]
  simp

theorem AtLine.opened_indent (h : r.AtLine n) (hindent : r.indent ≤ n) : (r.opened kind).indent = n := by
  obtain ⟨v, hlevel, -⟩ := h.level
  rw [← h.column] at hindent ⊢
  rcases Int.lt_or_eq_of_le hindent with hlt | heq
  · rw [opened_of_lt kind (inFlow_of_level hlevel) hlt]
  · rw [opened_of_eq kind heq, heq]

theorem length_outer_le (r : Standing) (kind : TokenKind) : r.outer.length ≤ (r.opened kind).outer.length := by
  rw [opened, openedAt]
  split
  · exact Nat.le_succ _
  · exact Nat.le_refl _

end Opened

/-- **The key of a member and its colon.** -/
theorem run_blockKey (h : r.AtLine n) (hindent : r.indent ≤ n) {key : String} (hkey : isKey key = true)
    (hnest : r.outer.length < nestingLimit) {broken : Bool} {width : Nat}
    (hrest : r.cursor.rest = key.toList ++ ':' :: (lineGap broken width ++ ds))
    (hgap : startsGap (lineGap broken width ++ ds) = true) (hds : Begins ds) :
    ∃ r' : Standing, Run r r' ∧
      r'.cursor = ⟨ds, r.cursor.mark.beyond (key.toList ++ ':' :: lineGap broken width)⟩ ∧
      r'.kinds = (r.opened .blockMappingStart).kinds ++ [.key, .scalar true key, .value] ∧
      r'.indent = (r.opened .blockMappingStart).indent ∧ r'.outer = (r.opened .blockMappingStart).outer ∧
      r'.keyAllowed = broken ∧ ∃ v : Level, r'.levels = [v] ∧ v.key = none := by
  obtain ⟨v, hlevel, hopt⟩ := h.level
  have hflow : r.inFlow = false := inFlow_of_level hlevel
  have hclosed : r.Closed := .inr (.inl (by rw [h.column]; exact hindent))
  have halnum := isAlphanumeric_of_isKey hkey
  have hline := notMem_newline_of_alphanumeric halnum
  have hlength := length_le_of_isKey hkey
  have hplain : r.cursor.plain? r.inFlow (r.indent + 1) = some (key.toList, .spaces [],
      ⟨':' :: (lineGap broken width ++ ds), r.cursor.mark.beyond (key.toList ++ [])⟩) := by
    have hcursor : r.cursor = ⟨key.toList ++ ':' :: (lineGap broken width ++ ds), r.cursor.mark⟩ := by rw [← hrest]
    rw [hflow, hcursor, append_nil]
    exact plain?_word (key_ne_nil hkey) halnum (by rw [plainWord, hgap]; rfl) rfl _
  have hfresh : ∀ k ∈ levelKeys r.noted, k.isRequired = true → k.FreshAt (r.cursor.mark.beyond (key.toList ++ [])) := by
    intro k hk _
    rw [noted, if_pos h.allowed, hlevel] at hk
    obtain rfl := mem_singleton.1 hk
    rw [append_nil, Mark.beyond_eq_ahead _ hline]
    exact ⟨Nat.le_refl _, by show r.cursor.mark.offset + _ ≤ r.cursor.mark.offset + 1024; omega⟩
  have hstep := step_word hclosed (hlevel ▸ hopt) (key_ne_nil hkey) halnum hfresh hplain hrest
    (begins_cons (by decide) (by decide) (by decide) _)
  rw [append_nil] at hstep
  have hrun := run_key hclosed h.allowed hlevel (fun k hk => absurd hk not_mem_nil) hnest hline
    (Nat.le_trans hlength (by decide)) hgap hds hstep
  refine ⟨_, hrun, rfl, ?_, ?_, ?_, ?_, _, rfl, rfl⟩
  · show _ ++ _ ++ _ = _
    rw [opened, openedAt_end_kinds, String.ofList_toList]
  · rw [opened, openedAt, afterKey]
    split <;> rfl
  · rw [opened, openedAt, afterKey]
    split <;> rfl
  · show (broken && !r.inFlow) = broken
    rw [hflow, Bool.not_false, Bool.and_true]

end Standing

/-- The indentation inside a record. -/
def innerIndent (step indent : Nat) : Nat := step * ((indent + step) / step)

theorem lt_innerIndent {step : Nat} (hstep : 0 < step) (indent : Nat) : indent < innerIndent step indent := by
  rw [innerIndent, Nat.add_div_right _ hstep]
  exact Nat.lt_mul_div_succ indent hstep

/-- A value, on its line or as a block. -/
def valueChars (step indent : Nat) (d : Document) : List Char :=
  match inline? step indent d with
  | some cs => endLine cs
  | none => blockChars step indent d

/-- The gap behind the colon of a member, in front of its value. -/
def memberGap (step indent : Nat) (d : Document) : Bool × Nat :=
  if (inline? step (innerIndent step indent) d).isSome then (false, 1) else (true, innerIndent step indent)

/-- What stands behind the colon of a member. -/
def memberOwn (step indent : Nat) (d : Document) : List Char :=
  lineGap (memberGap step indent d).1 (memberGap step indent d).2 ++ valueChars step (innerIndent step indent) d

section Entries

variable {step indent n : Nat}

theorem memberChars_cons (key : String) (d : Document) (rest : List (String × Document)) :
    memberChars step indent ((key, d) :: rest) = key.toList ++ ':' :: (memberOwn step indent d ++
      (if rest.isEmpty then [] else spaces indent ++ memberChars step indent rest)) := by
  rw [memberChars, memberOwn, memberGap, valueChars, innerIndent]
  cases inline? step (step * ((indent + step) / step)) d <;> simp [lineGap, spaces]

theorem itemChars_cons (d : Document) (rest : List Document) :
    itemChars step indent (d :: rest) = '-' :: ' ' :: (valueChars step (indent + 2) d ++
      (if rest.isEmpty then [] else spaces indent ++ itemChars step indent rest)) := by
  rw [itemChars, valueChars]
  cases inline? step (indent + 2) d <;> simp

/-- A value begins with what stands on its line, with a dash or with a key. -/
theorem begins_valueChars {depth : Nat} {d : Document} (hd : Writable (isPrintable ·) depth d)
    (tail : List Char) : Begins (valueChars step n d ++ tail) := by
  rw [valueChars]
  cases hinline : inline? step n d with
  | some cs =>
    obtain ⟨hline, hhead⟩ := line_of_inline hd hinline
    simp only [endLine_of_inline hd hinline, append_assoc]
    exact begins_of_line hline hhead _
  | none =>
    cases d with
    | list items =>
      cases items with
      | nil => exact absurd hinline (by simp [inline?])
      | cons d rest =>
        simp only [blockChars, itemChars_cons]
        exact begins_cons (by decide) (by decide) (by decide) _
    | record members =>
      cases members with
      | nil => exact absurd hinline (by simp [inline?])
      | cons m rest =>
        cases depth with
        | zero => exact absurd hd not_false
        | succ depth =>
          show Begins (blockChars step n (.record (m :: rest)) ++ tail)
          rw [blockChars, memberChars_cons, append_assoc]
          exact begins_key (hd m mem_cons_self).1 _
    | _ => exact absurd hinline (by simp [inline?])

end Entries

namespace Standing

variable {step : Nat} {r b : Standing} {ks : List TokenKind} {k n : Nat} {ds : List Char}

/-- Blocks of a depth are read as their tokens. -/
def ReadsBlocks (step depth : Nat) : Prop :=
  ∀ (d : Document) (indent : Nat) (r : Standing) (n k : Nat) (ds : List Char), Writable (isPrintable ·) depth d →
    inline? step indent d = none → r.AtLine n → r.indent < n → (k : Int) ≤ r.indent →
    r.outer.length + depth < nestingLimit →
    r.cursor.rest = blockChars step n d ++ (spaces k ++ ds) → Begins ds → r.Reaches r (yamlKinds d) k ds

section Values

variable {depth : Nat} (hblocks : ReadsBlocks step depth) {d : Document} (hd : Writable (isPrintable ·) depth d)
include hblocks hd

/-- **A value behind its key or dash.** A block begins at the place where the lexer stands. -/
theorem reaches_value (hlevel : r.levels = [v]) (hkey : v.key = none)
    (hindent : r.indent = n) (hcolumn : n < r.cursor.mark.column) {column : Nat}
    (hfilled : (inline? step column d).isSome = true → isFilled d = true ∨ r.keyAllowed = false)
    (hblock : inline? step column d = none → r.keyAllowed = true ∧ r.cursor.mark.column = column)
    (hnest : r.outer.length + depth < nestingLimit) (hk : k ≤ n)
    (hrest : r.cursor.rest = valueChars step column d ++ (spaces k ++ ds)) (hds : Begins ds) :
    r.Reaches r (yamlKinds d) k ds := by
  have hopt : Optional [v] := .of_key_eq_none hkey
  rw [valueChars] at hrest
  cases hinline : inline? step column d with
  | some cs =>
    simp only [hinline, endLine_of_inline hd hinline] at hrest
    exact reaches_inline hlevel hopt (by omega) (by omega) hd
      ((hfilled (by rw [hinline]; rfl)).imp_right (⟨hkey, ·⟩)) hinline (by simpa [spaces] using hrest) hds
  | none =>
    obtain ⟨hallowed, rfl⟩ := hblock hinline
    rw [hinline] at hrest
    exact hblocks d _ r _ k ds hd hinline ⟨rfl, hallowed, v, hlevel, hopt⟩ (by omega) (by omega) hnest hrest hds

/-- **A member of a record.** -/
theorem reaches_member (hstep : 0 < step) (h : r.AtLine n) (hindent : r.indent ≤ n) {key : String}
    (hkey : isKey key = true)
    (hnest : (r.opened .blockMappingStart).outer.length + depth < nestingLimit) (hk : k ≤ n)
    (hrest : r.cursor.rest = key.toList ++ ':' :: (memberOwn step n d ++ (spaces k ++ ds))) (hds : Begins ds) :
    r.Reaches (r.opened .blockMappingStart) ([.key, .scalar true key, .value] ++ yamlKinds d) k ds := by
  have hnest' : r.outer.length < nestingLimit := by
    have := r.length_outer_le .blockMappingStart
    omega
  rw [memberOwn, append_assoc] at hrest
  have hgap : ∀ tail, startsGap (lineGap (memberGap step n d).1 (memberGap step n d).2 ++ tail) = true := by
    intro tail
    rw [memberGap]
    split <;> rfl
  obtain ⟨r₁, hrun, hcursor, hkinds, hindent₁, houter, hallowed, v₁, hlevel₁, hkey₁⟩ :=
    run_blockKey h hindent hkey hnest' hrest (hgap _) (begins_valueChars hd _)
  -- Behind a line the column is that of the block, and on the line it is further in than the key.
  have hline : '\n' ∉ key.toList ++ [':', ' '] := by
    simpa using notMem_newline_of_alphanumeric (isAlphanumeric_of_isKey hkey)
  have hcolumn : n < r₁.cursor.mark.column ∧ (inline? step (innerIndent step n) d = none →
      r₁.keyAllowed = true ∧ r₁.cursor.mark.column = innerIndent step n) ∧
      ((inline? step (innerIndent step n) d).isSome = true → r₁.keyAllowed = false) := by
    rw [hcursor, hallowed, memberGap]
    cases hinline : inline? step (innerIndent step n) d with
    | some cs =>
      refine ⟨?_, nofun, fun _ => rfl⟩
      show n < (r.cursor.mark.beyond (key.toList ++ [':', ' '])).column
      rw [Mark.beyond_eq_ahead _ hline, length_append, ← h.column]
      exact Nat.lt_add_of_pos_right (Nat.lt_of_lt_of_le (by simp) (Nat.le_add_left _ _))
    | none =>
      have hcol : (r.cursor.mark.beyond (key.toList ++ ':' :: lineGap true (innerIndent step n))).column =
          innerIndent step n := by
        rw [append_cons]
        exact Mark.column_beyond_line _ (key.toList ++ [':']) _
      refine ⟨?_, fun _ => ⟨rfl, hcol⟩, nofun⟩
      show n < (r.cursor.mark.beyond (key.toList ++ ':' :: lineGap true (innerIndent step n))).column
      rw [hcol]
      exact lt_innerIndent hstep n
  obtain ⟨r', hrun', hat, hrest', hkinds', hindent', houter'⟩ := reaches_value hblocks hd hlevel₁ hkey₁
    (hindent₁.trans (h.opened_indent _ hindent)) hcolumn.1 (fun h => .inr (hcolumn.2.2 h)) hcolumn.2.1 (houter ▸ hnest) hk (by rw [hcursor]) hds
  refine ⟨r', hrun.trans hrun', hat, hrest', ?_, hindent'.trans hindent₁, houter'.trans houter⟩
  rw [hkinds', hkinds, append_assoc]

/-- **An item of a list.** -/
theorem reaches_item (h : r.AtLine n) (hindent : r.indent ≤ n) (hfilled : isFilled d = true)
    (hnest : (r.opened .blockSequenceStart).outer.length + depth < nestingLimit) (hk : k ≤ n)
    (hrest : r.cursor.rest = '-' :: ' ' :: (valueChars step (n + 2) d ++ (spaces k ++ ds))) (hds : Begins ds) :
    r.Reaches (r.opened .blockSequenceStart) (.blockEntry :: yamlKinds d) k ds := by
  obtain ⟨v, hlevel, hopt⟩ := h.level
  have hflow : r.inFlow = false := inFlow_of_level hlevel
  have hnest' : r.outer.length < nestingLimit := by
    have := r.length_outer_le .blockSequenceStart
    omega
  have hdash := step_dash (.inr (.inl (by rw [h.column]; exact hindent))) hflow h.allowed
    (hlevel ▸ hopt) hnest' 0 hrest (begins_valueChars hd _)
  let r₁ := (behindDash r).past false 1 (valueChars step (n + 2) d ++ (spaces k ++ ds))
  have hlevel₁ : r₁.levels = [{ v with key := none }] := by
    show forgotten r.levels = _
    rw [hlevel]
    rfl
  have hcolumn₁ : r₁.cursor.mark.column = n + 2 := by
    rw [← h.column]
    rfl
  obtain ⟨r', hrun', hat, hrest', hkinds', hindent', houter'⟩ := reaches_value (r := r₁) hblocks hd hlevel₁ rfl
    (h.opened_indent _ hindent) (by omega) (fun _ => .inl hfilled) (fun _ => ⟨rfl, hcolumn₁⟩) hnest hk rfl hds
  refine ⟨r', hdash.run.trans hrun', hat, hrest', ?_, hindent', houter'⟩
  rw [hkinds']
  show (r.opened .blockSequenceStart).kinds ++ [.blockEntry] ++ yamlKinds d = _
  rw [append_assoc]
  rfl

end Values

/-! ### Whole blocks -/

/-- **The entries of a block, one after the other.** Each is read from the beginning of its line on, and
    the first one opens the block. -/
theorem reaches_entries {α : Type} {start : TokenKind} {depth : Nat} (chars : List α → List Char)
    (own : α → List Char) (kinds : α → List TokenKind) (P : α → Prop)
    (hchars : ∀ a rest, chars (a :: rest) =
      own a ++ (if rest.isEmpty then [] else spaces n ++ chars rest))
    (hbegins : ∀ a, P a → ∀ tail, Begins (own a ++ tail))
    (hentry : ∀ (r : Standing) (a : α) (k : Nat) (ds : List Char), P a → r.AtLine n → r.indent ≤ n →
      (r.opened start).outer.length + depth < nestingLimit → k ≤ n →
      r.cursor.rest = own a ++ (spaces k ++ ds) → Begins ds → r.Reaches (r.opened start) (kinds a) k ds)
    {a : α} {entries : List α} (hentries : ∀ e ∈ a :: entries, P e) (h : r.AtLine n) (hindent : r.indent ≤ n)
    (hnest : (r.opened start).outer.length + depth < nestingLimit) (hk : k ≤ n)
    (hrest : r.cursor.rest = chars (a :: entries) ++ (spaces k ++ ds)) (hds : Begins ds) :
    r.Reaches (r.opened start) ((a :: entries).flatMap kinds) k ds := by
  induction entries generalizing r a with
  | nil =>
    rw [hchars] at hrest
    have hreaches := hentry r a k ds (hentries a mem_cons_self) h hindent hnest hk (by simpa using hrest) hds
    simpa using hreaches
  | cons a' entries ih =>
    obtain ⟨ha, hentries'⟩ := forall_mem_cons.1 hentries
    have hrest' : r.cursor.rest = own a ++ (spaces n ++ (chars (a' :: entries) ++ (spaces k ++ ds))) := by
      rw [hrest, hchars a]
      simp
    have hnext : Begins (chars (a' :: entries) ++ (spaces k ++ ds)) := by
      rw [hchars, append_assoc]
      exact hbegins a' (hentries' a' mem_cons_self) _
    obtain ⟨r₁, hrun, hat, hrest₁, hkinds, hindent₁, houter⟩ :=
      hentry r a n _ ha h hindent hnest (Nat.le_refl n) hrest' hnext
    -- The block is open now, so that the next entry opens none.
    have hopened : (r.opened start).indent = n := h.opened_indent _ hindent
    have hself : r₁.opened start = r₁ := opened_of_eq _ (by rw [hindent₁, hopened, hat.column])
    obtain ⟨r', hrun', hat', hrest₂, hkinds', hindent', houter'⟩ := ih hentries' hat
      (Int.le_of_eq (hindent₁.trans hopened)) (by rw [hself, houter]; exact hnest) hrest₁
    rw [hself] at hkinds' hindent' houter'
    refine ⟨r', hrun.trans hrun', hat', hrest₂, ?_, hindent'.trans hindent₁, houter'.trans houter⟩
    rw [hkinds', hkinds, append_assoc]
    rfl

theorem yamlMemberKinds_eq (members : List (String × Document)) : yamlMemberKinds members =
    members.flatMap fun m => [.key, .scalar true m.1, .value] ++ yamlKinds m.2 := by
  induction members with
  | nil => rw [yamlMemberKinds, flatMap_nil]
  | cons m members ih => rw [yamlMemberKinds, flatMap_cons, ih]

theorem yamlItemKinds_eq (items : List Document) : yamlItemKinds items =
    items.flatMap fun d => .blockEntry :: yamlKinds d := by
  induction items with
  | nil => rw [yamlItemKinds, flatMap_nil]
  | cons d items ih => rw [yamlItemKinds, flatMap_cons, ih]

section Collections

variable {depth : Nat} (hblocks : ReadsBlocks step depth) (h : r.AtLine n) (hindent : r.indent ≤ n) (hk : k ≤ n)
  (hds : Begins ds)
include hblocks h hindent hk hds

/-- The members of a record. -/
theorem reaches_members (hstep : 0 < step) {m : String × Document} {members : List (String × Document)}
    (hmembers : ∀ e ∈ m :: members, isKey e.1 = true ∧ Writable (isPrintable ·) depth e.2)
    (hnest : (r.opened .blockMappingStart).outer.length + depth < nestingLimit)
    (hrest : r.cursor.rest = memberChars step n (m :: members) ++ (spaces k ++ ds)) :
    r.Reaches (r.opened .blockMappingStart) (yamlMemberKinds (m :: members)) k ds := by
  rw [yamlMemberKinds_eq]
  refine reaches_entries (memberChars step n) (fun m => m.1.toList ++ ':' :: memberOwn step n m.2) _
    (fun m => isKey m.1 = true ∧ Writable (isPrintable ·) depth m.2) (fun m rest => ?_) (fun m hm tail => ?_)
    (fun r m k ds hm h hindent hnest hk hrest hds => ?_) hmembers h hindent hnest hk hrest hds
  · rw [memberChars_cons, append_assoc]
    rfl
  · rw [append_assoc]
    exact begins_key hm.1 _
  · rw [append_assoc] at hrest
    exact reaches_member hblocks hm.2 hstep h hindent hm.1 hnest hk hrest hds

theorem reaches_items {d : Document} {items : List Document}
    (hitems : ∀ e ∈ d :: items, isFilled e = true ∧ Writable (isPrintable ·) depth e)
    (hnest : (r.opened .blockSequenceStart).outer.length + depth < nestingLimit)
    (hrest : r.cursor.rest = itemChars step n (d :: items) ++ (spaces k ++ ds)) :
    r.Reaches (r.opened .blockSequenceStart) (yamlItemKinds (d :: items)) k ds := by
  rw [yamlItemKinds_eq]
  refine reaches_entries (itemChars step n) (fun d => '-' :: ' ' :: valueChars step (n + 2) d) _
    (fun d => isFilled d = true ∧ Writable (isPrintable ·) depth d) (fun d rest => ?_) (fun d _ tail => ?_)
    (fun r d k ds hd h hindent hnest hk hrest hds => ?_) hitems h hindent hnest hk hrest hds
  · rw [itemChars_cons]
    rfl
  · exact begins_cons (by decide) (by decide) (by decide) _
  · exact reaches_item hblocks hd.2 h hindent hd.1 hnest hk hrest hds

end Collections

/-- The end of a block, in front of a line further out. -/
theorem reaches_closed {start : TokenKind} (h : r.AtLine n) (hindent : r.indent < n)
    (hk : (k : Int) ≤ r.indent) (hreaches : r.Reaches (r.opened start) ks k ds) :
    r.Reaches r (start :: ks ++ [.blockEnd]) k ds := by
  obtain ⟨v, hlevel, -⟩ := h.level
  have hopened := opened_of_lt start (inFlow_of_level hlevel) (by rw [h.column]; exact hindent)
  obtain ⟨r₁, hrun, hat, hrest, hkinds, hindent₁, houter⟩ := hreaches
  rw [hopened] at hkinds hindent₁ houter
  obtain ⟨v₁, hlevel₁, hopt₁⟩ := hat.level
  have hcloses : r₁.Closes { r₁ with kinds := r₁.kinds ++ [.blockEnd], indent := r.indent, outer := r.outer } := by
    refine ⟨inFlow_of_level hlevel₁, r.indent, r.outer, houter, ?_, rfl⟩
    rw [hat.column, hindent₁]
    show (k : Int) < (r.cursor.mark.column : Int)
    rw [h.column]
    omega
  refine ⟨_, hrun.trans (.close hcloses (.refl _)), ?_, hrest, ?_, rfl, rfl⟩
  · exact { column := hat.column, allowed := hat.allowed, level := ⟨v₁, hlevel₁, hopt₁⟩ }
  · show r₁.kinds ++ [.blockEnd] = _
    rw [hkinds]
    simp

/-- **Every block is read as its tokens.** -/
theorem readsBlocks (hstep : 0 < step) (depth : Nat) : ReadsBlocks step depth := by
  induction depth with
  | zero => exact fun d _ _ _ _ _ hd => absurd hd not_false
  | succ depth ih =>
    intro d indent r n k ds hd hinline h hindent hk hnest hrest hds
    have hk' : k ≤ n := by omega
    obtain ⟨v, hlevel, -⟩ := h.level
    have hnest' : ∀ start, (r.opened start).outer.length + depth < nestingLimit := by
      intro start
      rw [opened_of_lt start (inFlow_of_level hlevel) (by rw [h.column]; exact hindent)]
      show r.outer.length + 1 + depth < _
      omega
    cases d with
    | list items =>
      cases items with
      | nil => exact absurd hinline (by simp [inline?])
      | cons d items =>
        exact reaches_closed h hindent hk (reaches_items ih h (Int.le_of_lt hindent) hk' hds hd (hnest' _) hrest)
    | record members =>
      cases members with
      | nil => exact absurd hinline (by simp [inline?])
      | cons m members =>
        exact reaches_closed h hindent hk (reaches_members ih h (Int.le_of_lt hindent) hk' hds hstep hd (hnest' _)
          hrest)
    | _ => exact absurd hinline (by simp [inline?])

end Standing

/-! ### Whole texts -/

/-- A text of entries is written when they are. -/
theorem isWritten_entries {α : Type} {indent : Nat} (chars : List α → List Char) (own : α → List Char)
    (hnil : chars [] = []) (hchars : ∀ a rest, chars (a :: rest) =
      own a ++ (if rest.isEmpty then [] else spaces indent ++ chars rest))
    {entries : List α} (h : ∀ a ∈ entries, IsWritten (own a)) : IsWritten (chars entries) := by
  induction entries with
  | nil =>
    rw [hnil]
    exact isWritten_nil
  | cons a entries ih =>
    obtain ⟨ha, hentries⟩ := forall_mem_cons.1 h
    rw [hchars]
    refine ha.append ?_
    split
    · exact isWritten_nil
    · exact (isWritten_spaces indent).append (ih hentries)

/-- **Nothing is refused in the text of a block.** -/
theorem isWritten_blockChars {step depth : Nat} {d : Document} (hd : Writable (isPrintable ·) depth d)
    (indent : Nat) : IsWritten (blockChars step indent d) := by
  induction depth generalizing d indent with
  | zero => exact absurd hd not_false
  | succ depth ih =>
    have hvalue : ∀ {e : Document} (indent : Nat), Writable (isPrintable ·) depth e →
        IsWritten (valueChars step indent e) := by
      intro e indent he
      rw [valueChars]
      cases hinline : inline? step indent e with
      | some cs =>
        simp only [endLine_of_inline he hinline]
        exact (IsWritten.of_line (line_of_inline he hinline).1).append (.cons (by decide) isWritten_nil)
      | none => exact ih he _
    cases d with
    | list items =>
      refine isWritten_entries (itemChars step indent) (fun d => '-' :: ' ' :: valueChars step (indent + 2) d)
        (by rw [itemChars]) (fun d rest => by rw [itemChars_cons]; rfl) fun d hmem => ?_
      exact .cons (by decide) (.cons (by decide) (hvalue _ (hd d hmem).2))
    | record members =>
      refine isWritten_entries (memberChars step indent) (fun m => m.1.toList ++ ':' :: memberOwn step indent m.2)
        (by rw [memberChars]) (fun m rest => by rw [memberChars_cons, append_assoc]; rfl)
        fun m hmem => ?_
      obtain ⟨hkey, hd'⟩ := hd m hmem
      exact (IsWritten.of_line (isLineChar_of_isKey hkey)).append
        (.cons (by decide) ((isWritten_lineGap _ _).append (hvalue _ hd')))
    | _ =>
      rw [blockChars]
      exact isWritten_nil

/-- **The tokens of a record in the block form.** -/
theorem yaml_finishes {step depth : Nat} (hstep : 0 < step) {m : String × Document}
    {members : List (String × Document)} (hd : Writable (isPrintable ·) (depth + 1) (.record (m :: members)))
    (hdepth : depth + 1 < nestingLimit) :
    Standing.Finishes { cursor := ⟨blockChars step 0 (.record (m :: members)), {}⟩ }
      (yamlKinds (.record (m :: members)) ++ [.streamEnd]) := by
  let r : Standing := { cursor := ⟨blockChars step 0 (.record (m :: members)), {}⟩ }
  have hat : r.AtLine 0 :=
    { column := rfl, allowed := rfl, level := ⟨{}, rfl, .of_key_eq_none rfl⟩ }
  have hopened := Standing.opened_of_lt (r := r) .blockMappingStart rfl
    (show (-1 : Int) < 0 by decide)
  have hnest : (r.opened .blockMappingStart).outer.length + depth < nestingLimit := by
    rw [hopened]
    show 1 + depth < _
    omega
  have hmembers : r.cursor.rest = memberChars step 0 (m :: members) ++ (spaces 0 ++ []) := by
    show blockChars step 0 (.record (m :: members)) = _
    rw [blockChars]
    exact (append_nil _).symm
  obtain ⟨r', hrun, hat', hrest, hkinds, hindent, houter⟩ :=
    Standing.reaches_members (k := 0) (Standing.readsBlocks hstep depth) hat (show (-1 : Int) ≤ 0 by decide)
      (Nat.le_refl 0) begins_nil hstep hd hnest hmembers
  rw [hopened] at hkinds hindent houter
  obtain ⟨v, hlevel, hopt⟩ := hat'.level
  have hdone : r'.Done 1 := {
    closed := .inr (.inl (Int.le_of_eq (hindent.trans (congrArg Int.ofNat hat'.column).symm)))
    rest := hrest
    level := ⟨v, hlevel, fun k hk => hopt k (mem_filterMap.2 ⟨v, mem_cons_self, hk⟩)⟩
    blocks := ⟨[0], rfl, by rw [hindent, houter]; rfl, by decide⟩ }
  have hfinishes := hrun.finishes (.done hdone)
  have hall : r'.kinds ++ replicate 1 .blockEnd ++ [.streamEnd] =
      yamlKinds (.record (m :: members)) ++ [.streamEnd] := by
    rw [hkinds, yamlKinds]
    rfl
  rwa [hall] at hfinishes

end ServiceCompiler.Document
