import Mathlib.Data.List.Basic
import ServiceCompiler.Document.Lexer
import ServiceCompiler.Proofs.Document.Word

namespace ServiceCompiler.Document

open List Lexer

/-!
# Where the lexer stands

The lexer reads tokens only as they are asked for, and a key is put in front of tokens that were read
already.  Here reading is seen apart from handing out: a `Standing` is the state in front of a token, with
all the kinds of tokens read so far, as if none had been handed out.

* `Lexer.Stands` — the lexer is in a state, ready to read the next token; `Lexer.Lags` — it gets there by
  passing a gap and closing blocks.
* `Standing.Step` — what reading one token does to a state, however many tokens were handed out.
* `Standing.Finishes` — steps lead from a state to the end of the text.
* `Lexer.delivers_of_finishes` — the tokens are then handed out one after the other.
-/

/-! ### States in front of a token -/

/-- A key is still possible at a place. -/
def SimpleKey.FreshAt (k : SimpleKey) (m : Mark) : Prop :=
  m.line ≤ k.mark.line ∧ m.offset ≤ k.mark.offset + 1024

theorem SimpleKey.FreshAt.mono {k : SimpleKey} {m n : Mark} (h : k.FreshAt n) (hmn : m.AtMost n) : k.FreshAt m :=
  ⟨Nat.le_trans hmn.1 h.1, Nat.le_trans hmn.2 h.2⟩

/-- The state in front of a token. -/
structure Standing where
  cursor : Cursor
  /-- The kinds of all tokens read, handed out or not. -/
  kinds : List TokenKind := []
  indent : Int := -1
  outer : List Int := []
  levels : List Level := [{}]
  keyAllowed : Bool := true

namespace Standing

variable (r : Standing)

/-- The possible keys of all levels, innermost first. -/
def keys : List SimpleKey := r.levels.filterMap (·.key)

/-- Whether a bracket is open. -/
def inFlow : Bool := decide (1 < r.levels.length)

/-- No block is to be closed in front of the token. -/
def Closed : Prop := r.inFlow = true ∨ r.indent ≤ r.cursor.mark.column ∨ r.outer = []

/-- The possible keys are waited for, have to be keys only as long as they can be, and follow each
    other. -/
structure Tidy : Prop where
  awaited : ∀ k ∈ r.keys, k.isAwaited = true
  required : ∀ k ∈ r.keys, k.isRequired = true → k.FreshAt r.cursor.mark
  decreasing : r.keys.Pairwise fun a b => b.index < a.index
  below : ∀ k ∈ r.keys, k.index < r.kinds.length

/-- One block is closed. -/
def Closes (r r' : Standing) : Prop :=
  r.inFlow = false ∧ ∃ o os, r.outer = o :: os ∧ (r.cursor.mark.column : Int) < r.indent ∧
    r' = { r with kinds := r.kinds ++ [.blockEnd], indent := o, outer := os }

end Standing

/-! ### Lexers in a state -/

/-- The end of a line, or none, and spaces. -/
def lineGap (broken : Bool) (width : Nat) : List Char :=
  (if broken then ['\n'] else []) ++ replicate width ' '

theorem isWritten_lineGap (broken : Bool) (width : Nat) : IsWritten (lineGap broken width) := by
  cases broken
  · exact isWritten_spaces width
  · exact .cons (by decide) (isWritten_spaces width)

/-- Where a token may begin: behind all gaps, and not at a comment. -/
structure Begins (cs : List Char) : Prop where
  stops : Stops cs
  ne_hash : cs.head? ≠ some '#'

theorem begins_nil : Begins [] := ⟨stops_nil, by simp⟩

namespace Lexer

/-- The possible keys of all levels. -/
def keys (l : Lexer) : List SimpleKey := l.levels.filterMap (·.key)

/-- The tokens read are of the given kinds. -/
def Holds (l : Lexer) (ks : List TokenKind) : Prop :=
  l.taken ≤ ks.length ∧ l.queue.map Token.kind = ks.drop l.taken

/-- The lexer is ready to read the next token. -/
structure Stands (l : Lexer) (r : Standing) : Prop where
  cursor : l.cursor = r.cursor
  holds : l.Holds r.kinds
  indent : l.indent = r.indent
  outer : l.outer = r.outer
  levels : l.levels = r.levels
  keyAllowed : l.keyAllowed = r.keyAllowed
  window : l.window.Clear
  written : IsWritten r.cursor.rest

/-- The lexer gets to a state by passing a gap and closing blocks of the given indentations. -/
structure Behind (l : Lexer) (r : Standing) (broken : Bool) (width : Nat) (closed : List Int) : Prop where
  rest : l.cursor.rest = lineGap broken width ++ r.cursor.rest
  mark : r.cursor.mark = l.cursor.mark.beyond (lineGap broken width)
  levels : l.levels = r.levels
  keyAllowed : r.keyAllowed = (l.keyAllowed || (broken && !r.inFlow))
  blocks : l.indent :: l.outer = closed ++ r.indent :: r.outer
  inside : ∀ d ∈ closed, (r.cursor.mark.column : Int) < d
  inFlow : r.inFlow = true → closed = []
  kinds : ∃ ks, l.Holds ks ∧ r.kinds = ks ++ replicate closed.length .blockEnd
  window : l.window.Clear
  written : IsWritten r.cursor.rest
  begins : Begins r.cursor.rest

@[inherit_doc Behind]
def Lags (l : Lexer) (r : Standing) : Prop := ∃ broken width closed, l.Behind r broken width closed

/-- What is done in front of a token once gaps are passed and blocks closed. -/
def token? (l : Lexer) : Option Lexer :=
  if l.cursor.rest.isEmpty then l.streamEnd?
  else if l.column == 0 && l.cursor.at_ '%' then l.directiveToken?
  else if l.cursor.atDocumentMark then
    l.documentMark? (if l.cursor.at_ '-' then .documentStart else .documentEnd)
  else l.contentToken?

theorem next?_eq (l : Lexer) :
    l.next? = (skipGaps? (l.cursor.rest.length + 1) l).bind fun l =>
      ((l.closeBlocks l.column).want? 4).bind token? := rfl

theorem isFresh_iff (l : Lexer) (k : SimpleKey) : l.isFresh k = true ↔ k.FreshAt l.cursor.mark := by
  simp [isFresh, SimpleKey.FreshAt]

/-! ### Tokens that were read -/

section Holds

variable {l : Lexer} {ks : List TokenKind}

theorem Holds.count (h : l.Holds ks) : l.count = ks.length := by
  have hlength := congrArg length h.2
  rw [length_map, length_drop] at hlength
  have := h.1
  rw [Lexer.count, hlength]
  omega

theorem Holds.emit (h : l.Holds ks) (kind : TokenKind) (m : Mark) : (l.emit kind m).Holds (ks ++ [kind]) := by
  refine ⟨?_, ?_⟩
  · rw [length_append]
    exact Nat.le_trans h.1 (Nat.le_add_right _ _)
  · show (l.queue ++ [Token.mk kind m.line]).map Token.kind = (ks ++ [kind]).drop l.taken
    rw [map_append, h.2, drop_append_of_le_length h.1]
    rfl

/-- A token is put in front of others that were not handed out. -/
theorem Holds.insert (h : l.Holds ks) {index : Nat} (htaken : l.taken ≤ index) (hindex : index ≤ ks.length)
    (kind : TokenKind) (m : Mark) :
    (l.insert index kind m).Holds (ks.take index ++ kind :: ks.drop index) := by
  have hlength : l.queue.length = ks.length - l.taken := by
    have := congrArg length h.2
    rwa [length_map, length_drop] at this
  rw [Lexer.insert, if_neg (Nat.not_lt.2 htaken)]
  refine ⟨?_, ?_⟩
  · rw [length_append, length_take]
    show l.taken ≤ _
    omega
  · show (l.queue.take (index - l.taken) ++ Token.mk kind m.line :: l.queue.drop (index - l.taken)).map
      Token.kind = (ks.take index ++ kind :: ks.drop index).drop l.taken
    rw [map_append, map_cons, map_take, map_drop, h.2,
      drop_append_of_le_length (by rw [length_take]; omega), drop_drop,
      take_drop]
    congr 3 <;> omega

end Holds

/-! ### Passing gaps -/

section Gaps

variable {l : Lexer} {ds : List Char} {width : Nat}

/-- Spaces in front of a token are passed. -/
theorem skipGaps?_spaces (fuel : Nat) (hwindow : l.window.Clear) (hwritten : IsWritten l.cursor.rest)
    (hrest : l.cursor.rest = replicate width ' ' ++ ds) (hds : Begins ds) :
    ∃ w, w.Clear ∧ skipGaps? (fuel + 1) l =
      some { l with cursor := ⟨ds, l.cursor.mark.beyond (replicate width ' ')⟩, window := w } := by
  obtain ⟨w₁, hwant, hw₁⟩ := hwindow.want? hwritten.notMarked 1
  have hgap : ∀ tabs : Bool, ∀ c ∈ ds.head?, (c == ' ' || (tabs && c == '\t')) = false := by
    intro tabs c hc
    have hc' := (hds.stops c hc).1
    rw [isGap, Bool.or_eq_false_iff] at hc'
    rw [hc'.1, hc'.2, Bool.and_false]
    rfl
  have hrun : ∀ tabs : Bool, l.cursor.run (fun d => d == ' ' || (tabs && d == '\t')) =
      (replicate width ' ', ⟨ds, l.cursor.mark.beyond (replicate width ' ')⟩) := by
    intro tabs
    have hcursor : l.cursor = ⟨replicate width ' ' ++ ds, l.cursor.mark⟩ := by rw [← hrest]
    rw [hcursor]
    refine Cursor.run_append (fun c hc => ?_) (hgap tabs) (Mark.notMem_spaces _)
    rw [eq_of_mem_replicate hc]
    rfl
  obtain ⟨w₂, halong, hw₂⟩ := hw₁.along? hwritten.notMarked 1 (width + 1)
  have hhash : (⟨ds, l.cursor.mark.beyond (replicate width ' ')⟩ : Cursor).at_ '#' = false := by
    simpa [Cursor.at_, Cursor.head?] using hds.ne_hash
  have hbreak : (!ds.isEmpty && startsBreak ds) = false := by
    cases ds with
    | nil => rfl
    | cons c cs => simpa [startsBreak] using (hds.stops c rfl).2
  refine ⟨w₂, hw₂, ?_⟩
  rw [skipGaps?, want?, hwant]
  simp only [Option.map_some, Option.bind_eq_bind, Option.bind_some, hw₁.isMarked, Bool.and_false,
    Bool.false_eq_true, if_false, hrun, length_replicate, halong, hhash, hbreak]
  rfl

/-- The end of a line in front of a token is passed. -/
theorem skipGaps?_line (fuel : Nat) (hwindow : l.window.Clear) (hwritten : IsWritten l.cursor.rest)
    (hrest : l.cursor.rest = '\n' :: (replicate width ' ' ++ ds)) (hds : Begins ds) :
    ∃ w, w.Clear ∧ skipGaps? (fuel + 2) l =
      some { l with
        cursor := ⟨ds, l.cursor.mark.beyond ('\n' :: replicate width ' ')⟩, window := w
        keyAllowed := l.keyAllowed || !l.inFlow } := by
  obtain ⟨w₁, hwant, hw₁⟩ := hwindow.want? hwritten.notMarked 1
  obtain ⟨w₂, halong, hw₂⟩ := hw₁.along? hwritten.notMarked 1 1
  obtain ⟨w₃, hwant₃, hw₃⟩ := hw₂.want? hwritten.notMarked 2
  have hcursor : l.cursor = ⟨[] ++ '\n' :: (replicate width ' ' ++ ds), l.cursor.mark⟩ := by
    rw [nil_append, ← hrest]
  have hrun : ∀ tabs : Bool, l.cursor.run (fun d => d == ' ' || (tabs && d == '\t')) = ([], l.cursor) := by
    intro tabs
    rw [hcursor, Cursor.run_append (by simp) _ (by simp)]
    · rfl
    · intro c hc
      obtain rfl : '\n' = c := by simpa using hc
      cases tabs <;> rfl
  have hhash : l.cursor.at_ '#' = false := by
    rw [hcursor]
    exact Cursor.at_cons (by decide)
  have hbreak : (!l.cursor.rest.isEmpty && startsBreak l.cursor.rest) = true := by
    rw [hrest]
    rfl
  have hread : l.cursor.readBreak.2 = ⟨replicate width ' ' ++ ds, l.cursor.mark.nextLine 1⟩ := by
    rw [hcursor]
    rfl
  have hwritten' : IsWritten (replicate width ' ' ++ ds) :=
    fun c hc => hwritten c (by rw [hrest]; exact mem_cons_of_mem _ hc)
  obtain ⟨w₄, hw₄, hskip⟩ := skipGaps?_spaces fuel
    (l := { l with
      cursor := ⟨replicate width ' ' ++ ds, l.cursor.mark.nextLine 1⟩, window := w₃
      keyAllowed := l.keyAllowed || !l.inFlow }) hw₃ hwritten' rfl hds
  refine ⟨w₄, hw₄, ?_⟩
  rw [skipGaps?, want?, hwant]
  simp only [Option.map_some, Option.bind_eq_bind, Option.bind_some, hw₁.isMarked, Bool.and_false,
    Bool.false_eq_true, if_false, hrun, length_nil, halong, hhash]
  rw [if_pos hbreak, want?, hwant₃]
  simp only [Option.map_some, Option.bind_some, hread]
  exact hskip

theorem skipGaps?_lineGap {broken : Bool} (hwindow : l.window.Clear) (hwritten : IsWritten l.cursor.rest)
    (hrest : l.cursor.rest = lineGap broken width ++ ds) (hds : Begins ds) :
    ∃ w, w.Clear ∧ skipGaps? (l.cursor.rest.length + 1) l =
      some { l with
        cursor := ⟨ds, l.cursor.mark.beyond (lineGap broken width)⟩, window := w
        keyAllowed := l.keyAllowed || (broken && !l.inFlow) } := by
  cases broken with
  | false =>
    obtain ⟨w, hw, hskip⟩ := skipGaps?_spaces l.cursor.rest.length hwindow hwritten hrest hds
    refine ⟨w, hw, hskip.trans ?_⟩
    simp [lineGap]
  | true =>
    have hlength : l.cursor.rest.length + 1 = (replicate width ' ' ++ ds).length + 2 := by
      rw [hrest]
      rfl
    obtain ⟨w, hw, hskip⟩ := skipGaps?_line (replicate width ' ' ++ ds).length
      hwindow hwritten hrest hds
    refine ⟨w, hw, ?_⟩
    rw [hlength, hskip]
    rfl

end Gaps

/-! ### Closing blocks -/

/-- The lexer with some blocks closed. -/
def emitEnds (l : Lexer) (n : Nat) : Lexer :=
  { l with queue := l.queue ++ replicate n ⟨.blockEnd, l.cursor.mark.line⟩ }

theorem Holds.emitEnds {l : Lexer} {ks : List TokenKind} (h : l.Holds ks) (n : Nat) :
    (l.emitEnds n).Holds (ks ++ replicate n TokenKind.blockEnd) := by
  refine ⟨?_, ?_⟩
  · rw [length_append]
    exact Nat.le_trans h.1 (Nat.le_add_right _ _)
  · show (l.queue ++ replicate n (Token.mk .blockEnd l.cursor.mark.line)).map Token.kind =
      (ks ++ replicate n TokenKind.blockEnd).drop l.taken
    rw [map_append, h.2, drop_append_of_le_length h.1, map_replicate]

/-- Blocks further in than a column are closed, and those around them stay. -/
theorem closeFrom_append {column : Int} {closed : List Int} {i o : Int} {os outer : List Int} (l : Lexer)
    (hblocks : i :: outer = closed ++ o :: os) (hclosed : ∀ d ∈ closed, column < d)
    (hopen : o ≤ column ∨ os = []) :
    closeFrom column l i outer = { l.emitEnds closed.length with indent := o, outer := os } := by
  induction closed generalizing l i outer with
  | nil =>
    obtain ⟨rfl, rfl⟩ := cons.inj hblocks
    have hself : l.emitEnds 0 = l := by simp [emitEnds]
    rw [length_nil, hself]
    cases outer with
    | nil => rfl
    | cons o' os =>
      have hle : i ≤ column := hopen.resolve_right (by simp)
      rw [closeFrom, if_neg (by omega)]
  | cons d closed ih =>
    rw [cons_append] at hblocks
    obtain ⟨rfl, rfl⟩ := cons.inj hblocks
    have hd : column < i := hclosed i mem_cons_self
    obtain ⟨o', os', hrest⟩ : ∃ o' os', closed ++ o :: os = o' :: os' := by
      cases closed <;> exact ⟨_, _, rfl⟩
    rw [hrest, closeFrom, if_pos hd, ih _ hrest.symm fun e he => hclosed e (mem_cons_of_mem _ he)]
    simp [emitEnds, emit, replicate_succ]

theorem inFlow_eq {l : Lexer} {r : Standing} (h : l.levels = r.levels) : l.inFlow = r.inFlow := by
  rw [inFlow, Standing.inFlow, h]
  rcases r.levels with _ | ⟨v, _ | ⟨w, vs⟩⟩ <;> simp

/-- **In front of a token.** The lexer gets to where it is ready to read the next token. -/
theorem Lags.exists_stands {l : Lexer} {r : Standing} (h : l.Lags r) (hclosed : r.Closed) :
    ∃ l' : Lexer, l'.Stands r ∧ l'.taken = l.taken ∧ l.next? = l'.token? := by
  obtain ⟨broken, width, closed, h⟩ := h
  have hwritten : IsWritten l.cursor.rest := by
    rw [h.rest]
    exact (isWritten_lineGap broken width).append h.written
  obtain ⟨w₁, hw₁, hskip⟩ := skipGaps?_lineGap h.window hwritten h.rest h.begins
  have hflow : l.inFlow = r.inFlow := inFlow_eq h.levels
  obtain ⟨ks, hks, hkinds⟩ := h.kinds
  -- Between brackets no blocks are closed.
  have hclose : ∀ w : Window, closeBlocks
      { l with cursor := r.cursor, window := w, keyAllowed := r.keyAllowed } r.cursor.mark.column =
      { l.emitEnds closed.length with
        queue := l.queue ++ replicate closed.length ⟨.blockEnd, r.cursor.mark.line⟩
        cursor := r.cursor, window := w, keyAllowed := r.keyAllowed
        indent := r.indent, outer := r.outer } := by
    intro w
    rw [closeBlocks]
    split
    · rename_i hin
      have hin' : r.inFlow = true := hflow ▸ hin
      obtain rfl := h.inFlow hin'
      obtain ⟨hindent, houter⟩ := cons.inj h.blocks
      simp [emitEnds, hindent, houter]
    · rename_i hout
      have hout' : ¬ r.inFlow = true := hflow ▸ hout
      exact closeFrom_append _ h.blocks h.inside (hclosed.resolve_left hout')
  have hcursor : (⟨r.cursor.rest, l.cursor.mark.beyond (lineGap broken width)⟩ : Cursor) = r.cursor := by
    rw [← h.mark]
  obtain ⟨w₂, hwant, hw₂⟩ := hw₁.want? h.written.notMarked 4
  refine ⟨{ l.emitEnds closed.length with
      queue := l.queue ++ replicate closed.length ⟨.blockEnd, r.cursor.mark.line⟩
      cursor := r.cursor, window := w₂, keyAllowed := r.keyAllowed
      indent := r.indent, outer := r.outer }, ?_, rfl, ?_⟩
  · exact {
      cursor := rfl
      holds := by
        rw [hkinds]
        exact Holds.emitEnds (l := { l with cursor := r.cursor }) hks closed.length
      indent := rfl
      outer := rfl
      levels := h.levels
      keyAllowed := rfl
      window := hw₂
      written := h.written }
  · rw [next?_eq, hskip, hflow, ← h.keyAllowed, hcursor]
    show (want? (closeBlocks _ r.cursor.mark.column) 4).bind token? = _
    rw [hclose, want?, hwant]
    rfl

theorem Lags.closes {l : Lexer} {r r' : Standing} (h : l.Lags r) (hr : r.Closes r') : l.Lags r' := by
  obtain ⟨broken, width, closed, h⟩ := h
  obtain ⟨hflow, o, os, houter, hinside, rfl⟩ := hr
  obtain ⟨ks, hks, hkinds⟩ := h.kinds
  refine ⟨broken, width, closed ++ [r.indent], ?_⟩
  exact {
    rest := h.rest
    mark := h.mark
    levels := h.levels
    keyAllowed := h.keyAllowed
    blocks := by rw [h.blocks, houter, append_assoc]; rfl
    inside := by
      intro d hd
      rcases mem_append.1 hd with hd | hd
      · exact h.inside d hd
      · rw [mem_singleton.1 hd]
        exact hinside
    inFlow := fun hin => by
      have : r.inFlow = true := hin
      rw [hflow] at this
      exact absurd this (by decide)
    kinds := ⟨ks, hks, by
      rw [hkinds, length_append, replicate_add, append_assoc]
      rfl⟩
    window := h.window
    written := h.written
    begins := h.begins }

theorem Lags.atMost {l : Lexer} {r : Standing} (h : l.Lags r) : l.cursor.mark.AtMost r.cursor.mark := by
  obtain ⟨broken, width, closed, h⟩ := h
  rw [h.mark]
  exact Mark.atMost_beyond _ _

theorem Lags.keys_eq {l : Lexer} {r : Standing} (h : l.Lags r) : l.keys = r.keys := by
  obtain ⟨broken, width, closed, h⟩ := h
  rw [keys, Standing.keys, h.levels]

theorem Lags.length_le {l : Lexer} {r : Standing} (h : l.Lags r) : r.cursor.rest.length ≤ l.cursor.rest.length := by
  obtain ⟨broken, width, closed, h⟩ := h
  rw [h.rest, length_append]
  exact Nat.le_add_left _ _

end Lexer

/-! ### Steps -/

/-- **What reading one token does.** However many tokens were handed out, as long as the key that may
    have started is not among them, the token is read and the lexer gets to the next state.  What was
    read before stays, but for what is put in front of a possible key. -/
structure Standing.Step (r r' : Standing) : Prop where
  closed : r.Closed
  reads : ∀ l : Lexer, l.Stands r → (∀ k ∈ r.keys, k.FreshAt r.cursor.mark → l.taken ≤ k.index) →
    ∃ l' : Lexer, l.token? = some l' ∧ l'.Lags r' ∧ l'.taken = l.taken ∧
      r.cursor.mark.AtMost l'.cursor.mark
  keys : r'.keys.Sublist r.keys ∨
    ∃ k ks, r'.keys = k :: ks ∧ ks.Sublist r.keys ∧ k.index = r.kinds.length ∧ k.isAwaited = true
  required : ∀ k ∈ r'.keys, k.isRequired = true → k.FreshAt r'.cursor.mark
  kept : ∃ i, r.kinds.take i <+: r'.kinds ∧
    (i = r.kinds.length ∨ ∃ k ∈ r.keys, k.FreshAt r.cursor.mark ∧ k.index = i)
  longer : r.kinds.length < r'.kinds.length
  shorter : r'.cursor.rest.length < r.cursor.rest.length
  later : r.cursor.mark.AtMost r'.cursor.mark

namespace Standing

variable {r r' : Standing} {ks : List TokenKind}

/-- A key behind a step was there before, or starts with the token. -/
theorem Step.mem_keys (h : r.Step r') {k : SimpleKey} (hk : k ∈ r'.keys) : k ∈ r.keys ∨ k.index = r.kinds.length := by
  rcases h.keys with hsub | ⟨k₀, rest, hkeys, hsub, hindex, -⟩
  · exact .inl (hsub.subset hk)
  · rw [hkeys] at hk
    rcases mem_cons.1 hk with rfl | hk
    · exact .inr hindex
    · exact .inl (hsub.subset hk)

theorem Step.tidy (h : r.Step r') (hr : r.Tidy) : r'.Tidy where
  required := h.required
  awaited k hk := by
    rcases h.keys with hsub | ⟨k₀, rest, hkeys, hsub, -, hawaited⟩
    · exact hr.awaited k (hsub.subset hk)
    · rw [hkeys] at hk
      rcases mem_cons.1 hk with rfl | hk
      · exact hawaited
      · exact hr.awaited k (hsub.subset hk)
  decreasing := by
    rcases h.keys with hsub | ⟨k₀, rest, hkeys, hsub, hindex, -⟩
    · exact hr.decreasing.sublist hsub
    · rw [hkeys]
      refine pairwise_cons.2 ⟨fun k hk => ?_, hr.decreasing.sublist hsub⟩
      rw [hindex]
      exact hr.below k (hsub.subset hk)
  below k hk := by
    rcases h.mem_keys hk with hk | hindex
    · exact Nat.lt_trans (hr.below k hk) h.longer
    · rw [hindex]
      exact h.longer

theorem Closes.tidy (h : r.Closes r') (hr : r.Tidy) : r'.Tidy := by
  obtain ⟨-, o, os, -, -, rfl⟩ := h
  exact {
    awaited := hr.awaited
    required := hr.required
    decreasing := hr.decreasing
    below := fun k hk => by
      rw [length_append]
      exact Nat.lt_succ_of_lt (hr.below k hk) }

/-- At the end of the text, all brackets are closed and no key is required. -/
structure Done (r : Standing) (ends : Nat) : Prop where
  closed : r.Closed
  rest : r.cursor.rest = []
  level : ∃ v : Level, r.levels = [v] ∧ ∀ k, v.key = some k → k.isRequired = false
  blocks : ∃ ds : List Int, ds.length = ends ∧ r.indent :: r.outer = ds ++ [-1] ∧ ∀ d ∈ ds, -1 < d

/-- **From a state to the end of the text.** The kinds are those of all tokens up to the end. -/
inductive Finishes : Standing → List TokenKind → Prop
  | close {r r' : Standing} {ks : List TokenKind} : r.Closes r' → Finishes r' ks → Finishes r ks
  | step {r r' : Standing} {ks : List TokenKind} : r.Step r' → Finishes r' ks → Finishes r ks
  | done {r : Standing} {ends : Nat} : r.Done ends →
    Finishes r (r.kinds ++ replicate ends .blockEnd ++ [.streamEnd])

/-- Tokens in front of all possible keys stay to the end. -/
theorem Finishes.take_prefix (h : r.Finishes ks) {i : Nat} (hi : i ≤ r.kinds.length)
    (hkeys : ∀ k ∈ r.keys, k.FreshAt r.cursor.mark → i ≤ k.index) : r.kinds.take i <+: ks := by
  induction h with
  | @close r r' ks hclose _ ih =>
    obtain ⟨-, o, os, -, -, rfl⟩ := hclose
    have hkept := ih (by simp only [length_append]; omega) hkeys
    rwa [take_append_of_le_length hi] at hkept
  | @step r r' ks hstep _ ih =>
    obtain ⟨i₀, hkept, hi₀⟩ := hstep.kept
    have hle : i ≤ i₀ := by
      rcases hi₀ with rfl | ⟨k, hk, hfresh, rfl⟩
      · exact hi
      · exact hkeys k hk hfresh
    have htake : r.kinds.take i <+: r'.kinds :=
      (take_prefix_take_left hle).trans hkept
    have heq : r'.kinds.take i = r.kinds.take i := by
      have := prefix_iff_eq_take.1 htake
      rw [length_take, Nat.min_eq_left hi] at this
      exact this.symm
    rw [← heq]
    refine ih (Nat.le_of_lt (Nat.lt_of_le_of_lt hi hstep.longer)) fun k hk hfresh => ?_
    rcases hstep.mem_keys hk with hk | hindex
    · exact hkeys k hk (hfresh.mono hstep.later)
    · omega
  | done _ =>
    rw [append_assoc]
    exact (List.take_prefix i _).trans (prefix_append _ _)

end Standing

end ServiceCompiler.Document
