import ServiceCompiler.Proofs.Document.Delivery
import ServiceCompiler.Proofs.Document.Style

namespace ServiceCompiler.Document

open List Lexer Cursor Option

/-!
# Reading one token

A step lemma for each kind of token that written documents are made of.  They all go the same way: which
token stands at the cursor, what the lexer does with it (`Lexer.Stands` of the state right behind the
token), and the gap that lies in front of the next one (`Standing.past`).

* `step_plain`, `step_word`, `step_quoted` — scalars.
* `run_key` — a key and its colon, which together put a key in front, and open a block at a new column.
* `step_dash` — an entry of a block.
* `step_open`, `step_close`, `step_comma` — the marks between brackets.
-/

variable {ds : List Char} {vs : List Level} {v : Level} {r₁ : Standing} {isPlain broken : Bool}
  {text taken : List Char} {gap : Gap} {width : Nat}

/-- The possible keys of some levels. -/
def levelKeys (levels : List Level) : List SimpleKey := levels.filterMap (·.key)

/-- None of the possible keys has to be one. -/
def Optional (levels : List Level) : Prop := ∀ k ∈ levelKeys levels, k.isRequired = false

theorem Optional.of_sublist {levels levels' : List Level} (h : Optional levels)
    (hsub : (levelKeys levels').Sublist (levelKeys levels)) : Optional levels' :=
  fun k hk => h k (hsub.subset hk)

/-- Keys that need not be keys may grow stale. -/
theorem Optional.fresh {levels : List Level} (h : Optional levels) (m : Mark) :
    ∀ k ∈ levelKeys levels, k.isRequired = true → k.FreshAt m := by
  intro k hk hrequired
  rw [h k hk] at hrequired
  exact absurd hrequired (by decide)

theorem Optional.of_key_eq_none (h : v.key = none) : Optional [v] := by
  intro k hk
  rw [levelKeys, filterMap_cons, h] at hk
  exact absurd hk not_mem_nil

namespace Standing

/-- The state behind a gap. -/
def past (r : Standing) (broken : Bool) (width : Nat) (ds : List Char) : Standing :=
  { r with
    cursor := ⟨ds, r.cursor.mark.beyond (lineGap broken width)⟩
    keyAllowed := r.keyAllowed || (broken && !r.inFlow) }

/-- How the possible keys change with a token: some go, and one may start with it. -/
def KeysChange (count : Nat) (levels levels' : List Level) : Prop :=
  (levelKeys levels').Sublist (levelKeys levels) ∨
    ∃ k ks, levelKeys levels' = k :: ks ∧ ks.Sublist (levelKeys levels) ∧ k.index = count ∧
      k.isAwaited = true

/-- **A step from what the lexer does at a token.** -/
theorem Step.of_stands {r : Standing} (text : List Char) (broken : Bool) (width : Nat) (hclosed : r.Closed)
    (hread : ∀ l : Lexer, l.Stands r →
      (∀ k ∈ r.keys, k.FreshAt r.cursor.mark → l.taken ≤ k.index) →
      ∃ l' : Lexer, l.token? = some l' ∧ l'.taken = l.taken ∧ l'.Stands r₁)
    (hrest : r.cursor.rest = text ++ (lineGap broken width ++ ds)) (htext : text ≠ [])
    (hcursor : r₁.cursor = ⟨lineGap broken width ++ ds, r.cursor.mark.beyond text⟩) (hds : Begins ds)
    (hkeys : KeysChange r.kinds.length r.levels r₁.levels)
    (hrequired : ∀ k ∈ r₁.keys, k.isRequired = true → k.FreshAt (r₁.past broken width ds).cursor.mark)
    (hkept : ∃ i, r.kinds.take i <+: r₁.kinds ∧
      (i = r.kinds.length ∨ ∃ k ∈ r.keys, k.FreshAt r.cursor.mark ∧ k.index = i))
    (hlonger : r.kinds.length < r₁.kinds.length) : r.Step (r₁.past broken width ds) where
  closed := hclosed
  reads l hl hkeys := by
    -- The lexer stops right behind the token, so it lags behind the state past the gap by all of the gap
    -- and by no token.
    obtain ⟨l', htoken, htaken, hl'⟩ := hread l hl hkeys
    refine ⟨l', htoken, ⟨broken, width, [], ?_⟩, htaken, ?_⟩
    · exact {
        rest := by rw [hl'.cursor, hcursor]; rfl
        mark := by rw [hl'.cursor]; rfl
        levels := hl'.levels
        keyAllowed := by rw [hl'.keyAllowed]; rfl
        blocks := by rw [hl'.indent, hl'.outer]; rfl
        inside := by simp
        inFlow := fun _ => rfl
        kinds := ⟨r₁.kinds, hl'.holds, by simp [past]⟩
        window := hl'.window
        written := by
          have := hl'.written
          rw [hcursor] at this
          exact this.of_append_right
        begins := hds }
    · rw [hl'.cursor, hcursor]
      exact Mark.atMost_beyond _ _
  keys := hkeys
  required := hrequired
  kept := hkept
  longer := hlonger
  shorter := by
    show ds.length < r.cursor.rest.length
    have hpos := length_pos_iff.2 htext
    rw [hrest, length_append, length_append]
    omega
  later := by
    show r.cursor.mark.AtMost (r₁.cursor.mark.beyond _)
    rw [hcursor]
    exact (Mark.atMost_beyond _ _).trans (Mark.atMost_beyond _ _)

/-- **States that steps lead through.** -/
inductive Run : Standing → Standing → Prop
  | refl (r : Standing) : Run r r
  | close {r r₁ r' : Standing} : r.Closes r₁ → Run r₁ r' → Run r r'
  | step {r r₁ r' : Standing} : r.Step r₁ → Run r₁ r' → Run r r'

theorem Run.trans {r₂ r₃ : Standing} (h : Run r₁ r₂) (h' : Run r₂ r₃) : Run r₁ r₃ := by
  induction h with
  | refl _ => exact h'
  | close hclose _ ih => exact .close hclose (ih h')
  | step hstep _ ih => exact .step hstep (ih h')

theorem Step.run {r r' : Standing} (h : r.Step r') : Run r r' := .step h (.refl r')

theorem Run.finishes {r r' : Standing} {ks : List TokenKind} (h : Run r r') (h' : r'.Finishes ks) :
    r.Finishes ks := by
  induction h with
  | refl _ => exact h'
  | close hclose _ ih => exact .close hclose (ih h')
  | step hstep _ ih => exact .step hstep (ih h')

/-! ### Possible keys -/

/-- The levels with a key noted at the token, where one may start. -/
def noted (r : Standing) : List Level :=
  if r.keyAllowed then
    r.levels.modifyHead fun v => { v with
      key := some
        { index := r.kinds.length
          isRequired := !r.inFlow && r.indent == r.cursor.mark.column
          mark := r.cursor.mark }
      isUsed := true }
  else r.levels

/-- The levels with no key in the innermost one. -/
def forgotten (levels : List Level) : List Level := levels.modifyHead ({ · with key := none })

theorem levelKeys_forgotten (levels : List Level) : (levelKeys (forgotten levels)).Sublist (levelKeys levels) := by
  cases levels with
  | nil => exact Sublist.refl _
  | cons v vs =>
    simp only [forgotten, levelKeys, modifyHead_cons, filterMap_cons]
    cases v.key with
    | none => exact Sublist.refl _
    | some k => exact sublist_cons_self _ _

theorem length_noted (r : Standing) : r.noted.length = r.levels.length := by
  rw [noted]
  split
  · rw [length_modifyHead]
  · rfl

theorem inFlow_noted (r : Standing) : ({ r with levels := r.noted } : Standing).inFlow = r.inFlow := by
  rw [inFlow, inFlow, length_noted]

theorem keysChange_noted (r : Standing) : KeysChange r.kinds.length r.levels r.noted := by
  rw [noted]
  split
  · cases hlevels : r.levels with
    | nil => exact .inl (Sublist.refl _)
    | cons v vs =>
      refine .inr ⟨_, levelKeys vs, rfl, ?_, rfl, rfl⟩
      exact (sublist_cons_self v vs).filterMap _
  · exact .inl (Sublist.refl _)

theorem keysChange_forgotten (r : Standing) : KeysChange r.kinds.length r.levels (forgotten r.levels) :=
  .inl (levelKeys_forgotten _)

theorem kept_append (r : Standing) (new : List TokenKind) :
    ∃ i, r.kinds.take i <+: r.kinds ++ new ∧
      (i = r.kinds.length ∨ ∃ k ∈ r.keys, k.FreshAt r.cursor.mark ∧ k.index = i) :=
  ⟨r.kinds.length, by rw [take_length]; exact prefix_append _ _, .inl rfl⟩

end Standing

namespace Lexer

variable {l : Lexer} {r : Standing}

theorem dropKey?_of_stands (h : l.Stands r) (hopt : Optional r.levels) :
    l.dropKey? = some { l with levels := Standing.forgotten r.levels } := by
  have hkey : ¬ (l.key?.map (·.isRequired)).getD false = true := by
    rw [key?, h.levels]
    cases hlevels : r.levels with
    | nil => simp
    | cons v vs =>
      cases hv : v.key with
      | none => simp [hv]
      | some k =>
        have hmem : k ∈ levelKeys r.levels := by
          rw [hlevels]
          exact mem_filterMap.2 ⟨v, mem_cons_self, hv⟩
        simp [hv, hopt k hmem]
  rw [dropKey?, if_neg hkey, forgetKey, h.levels]
  rfl

theorem noteKey?_of_stands (h : l.Stands r) (hopt : Optional r.levels) :
    l.noteKey? = some { l with levels := r.noted } := by
  cases hallowed : r.keyAllowed with
  | true =>
    rw [noteKey?, if_pos (h.keyAllowed.trans hallowed), Standing.noted, if_pos hallowed, dropKey?_of_stands h hopt]
    have hflow : ({ l with levels := Standing.forgotten r.levels } : Lexer).inFlow = r.inFlow := by
      rw [inFlow_eq (r := { r with levels := Standing.forgotten r.levels }) rfl,
        Standing.inFlow, Standing.inFlow, Standing.forgotten, length_modifyHead]
    have hcount : ({ l with levels := Standing.forgotten r.levels } : Lexer).count = r.kinds.length :=
      h.holds.count
    simp only [bind_eq_bind, bind_some, hflow, hcount]
    rw [Standing.forgotten, modifyHead_modifyHead]
    simp only [column, h.indent, h.cursor]
    rfl
  | false =>
    have hnot : ¬ l.keyAllowed = true := by
      rw [h.keyAllowed, hallowed]
      decide
    rw [noteKey?, if_neg hnot, Standing.noted, if_neg (by rw [hallowed]; decide), ← h.levels]

/-- Nothing is passed behind a token that has no comment behind it. -/
theorem skipLineComment?_of_clear (width : Nat) (ds : List Char) (hwindow : l.window.Clear)
    (hwritten : IsWritten l.cursor.rest) (hrest : l.cursor.rest = replicate width ' ' ++ ds)
    (hds : ∀ c ∈ ds.head?, isGap c = false ∧ c ≠ '#') :
    ∃ w, w.Clear ∧ l.skipLineComment? = some { l with window := w } := by
  have hrun : l.cursor.run isGap =
      (replicate width ' ', ⟨ds, l.cursor.mark.beyond (replicate width ' ')⟩) := by
    have hcursor : l.cursor = ⟨replicate width ' ' ++ ds, l.cursor.mark⟩ := by rw [← hrest]
    rw [hcursor]
    refine run_append (fun c hc => ?_) (fun c hc => (hds c hc).1) (Mark.notMem_spaces _)
    rw [eq_of_mem_replicate hc]
    rfl
  have hhash : (⟨ds, l.cursor.mark.beyond (replicate width ' ')⟩ : Cursor).at_ '#' = false := by
    have : ds.head? ≠ some '#' := fun h => (hds '#' h).2 rfl
    simpa [Cursor.at_, Cursor.head?] using this
  obtain ⟨w, hpeek, hw⟩ := hwindow.peek? hwritten.notMarked (min (width + 1) Piece.limit)
  refine ⟨w, hw, ?_⟩
  rw [skipLineComment?]
  simp only [hrun, length_replicate, bind_eq_bind, hpeek, bind_some, hhash]
  rfl

/-! ### Which token stands at the cursor -/

section

variable {c : Char} {cs : List Char} (hrest : l.cursor.rest = c :: cs)
include hrest

theorem token?_of_content 
    (hpercent : c ≠ '%') (hmark : l.cursor.atDocumentMark = false) : l.token? = l.contentToken? := by
  have hat : l.cursor.at_ '%' = false := by
    simpa [Cursor.at_, Cursor.head?, hrest] using hpercent
  rw [token?, hrest, hat, hmark]
  simp

/-- Only a dash or a dot could start the mark of a document. -/
theorem token?_of_cons 
    (hc : c ≠ '%' ∧ c ≠ '-' ∧ c ≠ '.') : l.token? = l.contentToken? := by
  refine token?_of_content hrest hc.1 ?_
  have hcursor : l.cursor = ⟨c :: cs, l.cursor.mark⟩ := by rw [← hrest]
  rw [hcursor]
  exact atDocumentMark_cons hc.2.1 hc.2.2

/-- Where a plain scalar may start, it does. -/
theorem contentToken?_plain 
    (hstart : startsPlain l.inFlow (c :: cs) = true) (hdash : c = '-' → startsGap cs = false) :
    l.contentToken? = l.plainScalar? := by
  -- A plain scalar starts with a character that marks nothing, or with one of `-`, `?` and `:` in front of
  -- more text; as marks those three stand in front of a gap.
  have hcases : ("-?:,[]\x7b\x7d#&*!|>'\"%@\x60".toList.contains c = false) ∨ c = '-' ∨
      (l.inFlow = false ∧ (c = '?' ∨ c = ':') ∧ startsGap cs = false) := by
    rw [startsPlain, Bool.or_eq_true, Bool.or_eq_true] at hstart
    rcases hstart with (h | h) | h
    · left
      simpa using (by simpa using h : _ ∧ _).2
    · right; left
      simpa using (Bool.and_eq_true_iff.1 h).1
    · right; right
      simpa [and_assoc] using h
  rw [contentToken?, hrest]
  simp only [head?_cons, drop_succ_cons, drop_zero]
  rcases hcases with h | rfl | ⟨hflow, rfl | rfl, hgap⟩
  · have hne : c ≠ '[' ∧ c ≠ '\x7b' ∧ c ≠ ']' ∧ c ≠ '\x7d' ∧ c ≠ ',' ∧ c ≠ '-' ∧ c ≠ '?' ∧ c ≠ ':' ∧
        c ≠ '*' ∧ c ≠ '&' ∧ c ≠ '!' ∧ c ≠ '|' ∧ c ≠ '>' ∧ c ≠ '\'' ∧ c ≠ '"' := by
      refine ⟨?_, ?_, ?_, ?_, ?_, ?_, ?_, ?_, ?_, ?_, ?_, ?_, ?_, ?_, ?_⟩ <;>
        (rintro rfl; exact absurd h (by decide))
    simp [hne, hstart]
  · simp [hdash, hstart]
  · rw [hflow] at hstart
    simp [hflow, hgap, hstart]
  · rw [hflow] at hstart
    simp [hflow, hgap, hstart]

end

/-- What passing a mark of one character changes. -/
theorem Stands.marked (h : l.Stands r) (kind : TokenKind) (levels : List Level) (keyAllowed : Bool) :
    Stands { l.emitMark kind 1 with levels, keyAllowed } { r with
      cursor := r.cursor.skip 1
      kinds := r.kinds ++ [kind]
      levels
      keyAllowed } where
  cursor := by
    show l.cursor.skip 1 = _
    rw [h.cursor]
  holds := h.holds.emit _ _
  indent := h.indent
  outer := h.outer
  levels := rfl
  keyAllowed := rfl
  window := h.window
  written := fun c hc => h.written c (mem_of_mem_drop hc)

/-! ### Scalars -/

/-- The state right behind a scalar. -/
def behindScalar (r : Standing) (isPlain : Bool) (text : List Char) (c : Cursor) (keyAllowed : Bool) :
    Standing :=
  { r with
    cursor := c
    kinds := r.kinds ++ [.scalar isPlain (String.ofList text)]
    levels := r.noted
    keyAllowed }

/-- What passing a scalar changes. -/
theorem Stands.emitted (h : l.Stands r) {c : Cursor} {w : Window} (hw : w.Clear) (hwritten : IsWritten c.rest)
    (keyAllowed : Bool) :
    Stands { ({ l with levels := r.noted } : Lexer).emit (.scalar isPlain (String.ofList text)) l.cursor.mark with
      cursor := c, window := w, keyAllowed } (behindScalar r isPlain text c keyAllowed) where
  cursor := rfl
  holds := h.holds.emit _ _
  indent := h.indent
  outer := h.outer
  levels := rfl
  keyAllowed := rfl
  window := hw
  written := hwritten

/-- What is read as a plain scalar becomes one. -/
theorem exists_plainScalar (h : l.Stands r) (hopt : Optional r.levels) {c : Cursor}
    (hplain : r.cursor.plain? r.inFlow (r.indent + 1) = some (text, gap, c)) (hwritten : IsWritten c.rest)
    (hbehind : gap.isBroken = false → ∀ d ∈ c.rest.head?, isGap d = false ∧ d ≠ '#') :
    ∃ l' : Lexer, l.plainScalar? = some l' ∧ l'.taken = l.taken ∧
      l'.Stands (behindScalar r true text c gap.isBroken) := by
  have hflow : ({ l with levels := r.noted } : Lexer).inFlow = r.inFlow :=
    (inFlow_eq (r := { r with levels := r.noted }) rfl).trans r.inFlow_noted
  obtain ⟨w₁, halong, hw₁⟩ := h.window.alongWords? (h.cursor ▸ h.written.notMarked)
    (c.mark.offset - l.cursor.mark.offset) true
  obtain ⟨w₂, hwant, hw₂⟩ := hw₁.want? (c := c) hwritten.notMarked
    (if gap = .spaces [] then 2 else if !r.inFlow && (c.mark.column : Int) ≤ l.indent then 1 else 4)
  have hread : l.cursor.plain? r.inFlow (l.indent + 1) = some (text, gap, c) := by
    rw [h.cursor, h.indent]
    exact hplain
  rw [plainScalar?, noteKey?_of_stands h hopt]
  simp only [bind_eq_bind, bind_some, hflow, hread, halong, hwant]
  cases hbroken : gap.isBroken with
  | true => exact ⟨_, rfl, rfl, h.emitted hw₂ hwritten true⟩
  | false =>
    obtain ⟨w₃, hw₃, hskip⟩ := skipLineComment?_of_clear 0 c.rest
      (l := { ({ l with levels := r.noted } : Lexer).emit (.scalar true (String.ofList text)) l.cursor.mark with
        cursor := c, window := w₂, keyAllowed := gap.isBroken }) hw₂ hwritten rfl (hbehind hbroken)
    rw [hbroken] at hskip
    exact ⟨_, hskip, rfl, h.emitted hw₃ hwritten false⟩

/-- What is read between quotes becomes a scalar. -/
theorem exists_quotedScalar (h : l.Stands r) (hopt : Optional r.levels) {quote : Char} {c : Cursor}
    (hquoted : r.cursor.quoted? quote = some (text, c)) (hwritten : IsWritten c.rest)
    (hrest : c.rest = replicate width ' ' ++ ds) (hds : ∀ d ∈ ds.head?, isGap d = false ∧ d ≠ '#') :
    ∃ l' : Lexer, (l.quotedScalar? quote >>= skipLineComment?) = some l' ∧ l'.taken = l.taken ∧
      l'.Stands (behindScalar r false text c false) := by
  obtain ⟨w₁, halong, hw₁⟩ := h.window.alongWords?
    (Window.notMem_skip (c := l.cursor) (h.cursor ▸ h.written.notMarked) 1)
    (c.mark.offset - l.cursor.mark.offset - 1) true
  have hread : l.cursor.quoted? quote = some (text, c) := by
    rw [h.cursor]
    exact hquoted
  obtain ⟨w₂, hw₂, hskip⟩ := skipLineComment?_of_clear width ds
    (l := { ({ l with levels := r.noted } : Lexer).emit (.scalar false (String.ofList text)) l.cursor.mark with
      cursor := c, window := w₁, keyAllowed := false }) hw₁ hwritten hrest hds
  rw [quotedScalar?, noteKey?_of_stands h hopt]
  simp only [bind_eq_bind, bind_some, hread, halong]
  exact ⟨_, hskip, rfl, h.emitted hw₂ hwritten false⟩

end Lexer

/-! ### Steps over scalars -/

namespace Standing

variable {r : Standing}

theorem past_nothing (ds : List Char) (h : r.cursor.rest = ds) : r.past false 0 ds = r := by
  obtain ⟨⟨rest, mark⟩, kinds, indent, outer, levels, keyAllowed⟩ := r
  obtain rfl : rest = ds := h
  simp [past, lineGap]

/-- A key that starts here need not be one. -/
def FreeKey (r : Standing) : Prop :=
  r.keyAllowed = true → r.inFlow = true ∨ r.indent ≠ r.cursor.mark.column

theorem optional_noted (hopt : Optional r.levels) (hfree : r.FreeKey) : Optional r.noted := by
  rw [noted]
  split
  · rename_i hallowed
    cases hlevels : r.levels with
    | nil => exact fun k hk => absurd hk not_mem_nil
    | cons v vs =>
      intro k hk
      rcases mem_cons.1 hk with rfl | hk
      · rcases hfree hallowed with hflow | hindent
        · simp [hflow]
        · simp [hindent]
      · exact hopt k (by rw [hlevels]; exact ((sublist_cons_self v vs).filterMap _).subset hk)
  · exact hopt

theorem fresh_of_freeKey (hopt : Optional r.levels) (hfree : r.FreeKey) (m : Mark) :
    ∀ k ∈ levelKeys r.noted, k.isRequired = true → k.FreshAt m :=
  (optional_noted hopt hfree).fresh m

/-- **A plain scalar.** -/
theorem step_plain (hclosed : r.Closed) (hopt : Optional r.levels)
    (hkey : ∀ k ∈ levelKeys r.noted, k.isRequired = true → k.FreshAt (r.cursor.mark.beyond taken))
    (hplain : r.cursor.plain? r.inFlow (r.indent + 1) = some (text, gap, ⟨ds, r.cursor.mark.beyond taken⟩))
    (hrest : r.cursor.rest = taken ++ ds) {c : Char} {cs : List Char} (htaken : taken = c :: cs)
    (hstart : startsPlain r.inFlow r.cursor.rest = true) (hdash : c = '-' → startsGap (cs ++ ds) = false)
    (hpercent : c ≠ '%') (hmark : r.cursor.atDocumentMark = false) (hds : Begins ds) :
    r.Step (behindScalar r true text ⟨ds, r.cursor.mark.beyond taken⟩ gap.isBroken) := by
  have hhead : r.cursor.rest = c :: (cs ++ ds) := by rw [hrest, htaken]; rfl
  have hstep : r.Step ((behindScalar r true text ⟨ds, r.cursor.mark.beyond taken⟩ gap.isBroken).past
      false 0 ds) := Step.of_stands taken false 0 hclosed
    (fun l hl _ => by
      have hflow : l.inFlow = r.inFlow := inFlow_eq hl.levels
      have hl' : l.cursor.rest = c :: (cs ++ ds) := by rw [hl.cursor, hhead]
      rw [token?_of_content hl' hpercent (hl.cursor ▸ hmark),
        contentToken?_plain hl' (by rw [hflow, ← hhead]; exact hstart) hdash]
      exact exists_plainScalar hl hopt hplain (hrest ▸ hl.written).of_append_right fun _ d hd =>
        ⟨(hds.stops d hd).1, fun h => hds.ne_hash (h ▸ hd)⟩)
    hrest (by rw [htaken]; exact cons_ne_nil _ _) rfl hds r.keysChange_noted
    hkey (r.kept_append _) (by simp [behindScalar])
  rwa [past_nothing ds rfl] at hstep

/-- **A plain word of letters and digits.** -/
theorem step_word (hclosed : r.Closed) (hopt : Optional r.levels) {word gapped : List Char} (hne : word ≠ [])
    (hword : ∀ c ∈ word, Text.isAlphanumeric c)
    (hkey : ∀ k ∈ levelKeys r.noted, k.isRequired = true → k.FreshAt (r.cursor.mark.beyond (word ++ gapped)))
    (hplain : r.cursor.plain? r.inFlow (r.indent + 1) =
      some (word, gap, ⟨ds, r.cursor.mark.beyond (word ++ gapped)⟩))
    (hrest : r.cursor.rest = word ++ (gapped ++ ds)) (hds : Begins ds) :
    r.Step (behindScalar r true word ⟨ds, r.cursor.mark.beyond (word ++ gapped)⟩ gap.isBroken) := by
  have hcursor : r.cursor = ⟨word ++ (gapped ++ ds), r.cursor.mark⟩ := by rw [← hrest]
  have hmark : r.cursor.atDocumentMark = false := hcursor ▸ (head_of_alphanumeric hne hword _ _).1
  obtain ⟨c, cs, rfl⟩ := exists_cons_of_ne_nil hne
  have hc : Text.isAlphanumeric c = true := hword c mem_cons_self
  refine step_plain hclosed hopt hkey hplain (by rw [hrest, append_assoc]) rfl ?_
    (fun hdash => absurd hdash (ne_of_isAlphanumeric hc (by decide))) (ne_of_isAlphanumeric hc (by decide)) hmark hds
  rw [hrest]
  exact startsPlain_of_isAlphanumeric hc _ _

theorem lineGap_behind (broken : Bool) (width : Nat) (hds : Begins ds) :
    ∃ n es, lineGap broken width ++ ds = replicate n ' ' ++ es ∧
      ∀ d ∈ es.head?, isGap d = false ∧ d ≠ '#' := by
  cases broken with
  | false => exact ⟨width, ds, rfl, fun d hd => ⟨(hds.stops d hd).1, fun h => hds.ne_hash (h ▸ hd)⟩⟩
  | true =>
    refine ⟨0, '\n' :: (replicate width ' ' ++ ds), rfl, fun d hd => ?_⟩
    obtain rfl : '\n' = d := by simpa using hd
    decide

/-- **A quoted scalar.** -/
theorem step_quoted (hclosed : r.Closed) (hopt : Optional r.levels) {quote : Char}
    (hquote : quote = '\'' ∨ quote = '"') (hkey : ∀ k ∈ levelKeys r.noted, k.isRequired = true →
      k.FreshAt ((r.cursor.mark.beyond taken).beyond (lineGap broken width))) (hquoted : r.cursor.quoted? quote =
      some (text, ⟨lineGap broken width ++ ds, r.cursor.mark.beyond taken⟩))
    (hrest : r.cursor.rest = taken ++ (lineGap broken width ++ ds)) (htaken : taken.head? = some quote)
    (hds : Begins ds) :
    r.Step ((behindScalar r false text ⟨lineGap broken width ++ ds, r.cursor.mark.beyond taken⟩
      false).past broken width ds) := by
  obtain ⟨cs, rfl⟩ := head?_eq_some_iff.1 htaken
  have hhead : r.cursor.rest = quote :: (cs ++ (lineGap broken width ++ ds)) := hrest
  obtain ⟨n, es, hsplit, hes⟩ := lineGap_behind broken width hds
  refine Step.of_stands (quote :: cs) broken width hclosed (fun l hl _ => ?_) hrest (cons_ne_nil _ _) rfl hds
    r.keysChange_noted hkey (r.kept_append _) (by simp [behindScalar])
  · have hl' : l.cursor.rest = quote :: (cs ++ (lineGap broken width ++ ds)) := by rw [hl.cursor, hhead]
    have hcontent : l.contentToken? = l.quotedScalar? quote >>= skipLineComment? := by
      rw [contentToken?, hl']
      rcases hquote with rfl | rfl <;> simp
    rw [token?_of_cons hl' (by rcases hquote with rfl | rfl <;> decide), hcontent]
    exact exists_quotedScalar hl hopt hquoted (hrest ▸ hl.written).of_append_right hsplit hes

end Standing

/-! ### Keys -/

namespace Lexer

variable {l : Lexer} {r : Standing}

/-- Whether a key opens a block. -/
def opensBlock (r : Standing) (column : Nat) : Bool := !r.inFlow && decide (r.indent < column)

/-- The state with a block opened at a column, where one opens. -/
def openedAt (r : Standing) (column index : Nat) (kind : TokenKind) : Standing :=
  if opensBlock r column then
    { r with
      kinds := r.kinds.take index ++ kind :: r.kinds.drop index
      indent := column
      outer := r.indent :: r.outer }
  else r

theorem Stands.insert (h : l.Stands r) {index : Nat} (kind : TokenKind) (m : Mark)
    (htaken : l.taken ≤ index) (hindex : index ≤ r.kinds.length) :
    (l.insert index kind m).taken = l.taken ∧ (l.insert index kind m).Stands
      { r with kinds := r.kinds.take index ++ kind :: r.kinds.drop index } := by
  have hholds := h.holds.insert htaken hindex kind m
  rw [Lexer.insert, if_neg (Nat.not_lt.2 htaken)] at hholds ⊢
  exact ⟨rfl, { h with holds := hholds }⟩

theorem exists_openBlock (h : l.Stands r) (column : Nat) {index : Nat} (kind : TokenKind) (m : Mark)
    (htaken : l.taken ≤ index) (hindex : index ≤ r.kinds.length) (hnest : r.outer.length < nestingLimit) :
    ∃ l' : Lexer, l.openBlock? column index kind m = some l' ∧ l'.taken = l.taken ∧
      l'.Stands (openedAt r column index kind) := by
  have hflow : l.inFlow = r.inFlow := inFlow_eq h.levels
  rw [openBlock?, openedAt, opensBlock, hflow, h.indent]
  cases hopens : (!r.inFlow && decide (r.indent < (column : Int))) with
  | false => exact ⟨l, rfl, rfl, h⟩
  | true =>
    obtain ⟨htaken', hinserted⟩ := h.insert kind m htaken hindex
    rw [if_pos rfl, if_pos (by rw [h.outer]; exact hnest)]
    refine ⟨_, rfl, htaken', ?_⟩
    exact { hinserted with
      indent := rfl
      outer := by show r.indent :: l.outer = _; rw [h.outer]; rfl }

/-- The state right behind the colon of a key. -/
def behindColon (r : Standing) (k : SimpleKey) : Standing :=
  let opened := openedAt { r with kinds := r.kinds.take k.index ++ .key :: r.kinds.drop k.index }
    k.mark.column k.index .blockMappingStart
  { opened with
    cursor := r.cursor.skip 1
    kinds := opened.kinds ++ [.value]
    levels := Standing.forgotten r.levels
    keyAllowed := false }

theorem openedAt_levels (r : Standing) (column index : Nat) (kind : TokenKind) :
    (openedAt r column index kind).levels = r.levels ∧
      (openedAt r column index kind).cursor = r.cursor := by
  rw [openedAt]
  split <;> exact ⟨rfl, rfl⟩

/-- The colon makes the possible key one. -/
theorem exists_colon (h : l.Stands r) {k : SimpleKey} (hkey : r.levels.head?.bind (·.key) = some k)
    (hfresh : k.FreshAt r.cursor.mark) (htaken : l.taken ≤ k.index) (hindex : k.index ≤ r.kinds.length)
    (hnest : r.outer.length < nestingLimit) {cs : List Char} (hrest : r.cursor.rest = ':' :: cs)
    (hcs : cs = replicate width ' ' ++ ds) (hds : ∀ d ∈ ds.head?, isGap d = false ∧ d ≠ '#') :
    ∃ l' : Lexer, (l.colon? >>= skipLineComment?) = some l' ∧ l'.taken = l.taken ∧
      l'.Stands (behindColon r k) := by
  have hfresh' : l.isFresh k = true := by
    rw [isFresh_iff, h.cursor]
    exact hfresh
  obtain ⟨htaken₁, hinserted⟩ := h.insert .key k.mark htaken hindex
  obtain ⟨l₂, hopen, htaken₂, hopened⟩ := exists_openBlock hinserted k.mark.column
    .blockMappingStart k.mark (by rw [htaken₁]; exact htaken : _ ≤ k.index)
    (by simp only [length_append, length_take, length_cons, length_drop]; omega) hnest
  obtain ⟨hlevels₂, hcursor₂⟩ := openedAt_levels
    { r with kinds := r.kinds.take k.index ++ .key :: r.kinds.drop k.index } k.mark.column k.index
    .blockMappingStart
  have hwritten : IsWritten (r.cursor.skip 1).rest := fun c hc => h.written c (mem_of_mem_drop hc)
  have hcursor₃ : l₂.cursor = r.cursor := hopened.cursor.trans hcursor₂
  obtain ⟨w, hw, hskip⟩ := skipLineComment?_of_clear width ds
    (l := { l₂.forgetKey.emitMark .value 1 with keyAllowed := false }) hopened.window
    (by show IsWritten (l₂.cursor.skip 1).rest; rw [hcursor₃]; exact hwritten)
    (by show (l₂.cursor.skip 1).rest = _; rw [hcursor₃, skip, hrest, ← hcs]; rfl) hds
  refine ⟨{ l₂.forgetKey.emitMark .value 1 with keyAllowed := false, window := w }, ?_, ?_, ?_⟩
  · rw [colon?, key?, h.levels, hkey]
    simp only [hfresh', if_true, bind_eq_bind, bind_some, hopen]
    exact hskip
  · exact htaken₂.trans htaken₁
  · exact {
      cursor := by show l₂.cursor.skip 1 = _; rw [hcursor₃]; rfl
      holds := hopened.holds.emit _ _
      indent := hopened.indent
      outer := hopened.outer
      levels := by
        show l₂.levels.modifyHead _ = _
        rw [hopened.levels, hlevels₂]
        rfl
      keyAllowed := rfl
      window := hw
      written := hwritten }

end Lexer

namespace Standing

open Lexer (behindScalar behindColon opensBlock openedAt)

variable {r : Standing} {b : Char} {kind : TokenKind}

theorem behindColon_kinds (r : Standing) (k : SimpleKey) (h : k.index ≤ r.kinds.length) :
    r.kinds.take k.index <+: (behindColon r k).kinds ∧ r.kinds.length < (behindColon r k).kinds.length := by
  have hlength : (r.kinds.take k.index).length = k.index := by
    rw [length_take, Nat.min_eq_left h]
  have htake : (r.kinds.take k.index ++ TokenKind.key :: r.kinds.drop k.index).take k.index =
      r.kinds.take k.index := by
    rw [take_append_of_le_length (Nat.le_of_eq hlength.symm), take_take, Nat.min_self]
  rw [behindColon, openedAt]
  split
  · refine ⟨?_, ?_⟩
    · simp only [htake, append_assoc]
      exact prefix_append _ _
    · simp only [length_append, length_take, length_cons, length_drop, length_nil]
      omega
  · refine ⟨?_, ?_⟩
    · simp only [append_assoc]
      exact prefix_append _ _
    · simp only [length_append, length_take, length_cons, length_drop, length_nil]
      omega

/-- **The colon behind a key.** -/
theorem step_colon (hclosed : r.Closed) {k : SimpleKey} (hlevels : r.levels = v :: vs) (hkey : v.key = some k)
    (hopt : Optional vs) (hfresh : k.FreshAt r.cursor.mark) (hindex : k.index ≤ r.kinds.length)
    (hnest : r.outer.length < nestingLimit) (hrest : r.cursor.rest = ':' :: (lineGap broken width ++ ds))
    (hgap : startsGap (lineGap broken width ++ ds) = true) (hds : Begins ds) :
    r.Step ((behindColon r k).past broken width ds) := by
  have hmem : k ∈ r.keys := by
    rw [Standing.keys, hlevels]
    exact mem_filterMap.2 ⟨v, mem_cons_self, hkey⟩
  obtain ⟨n, es, hsplit, hes⟩ := lineGap_behind broken width hds
  obtain ⟨hlead, hlonger⟩ := behindColon_kinds r k hindex
  refine Step.of_stands [':'] broken width hclosed (fun l hl hsafe => ?_) hrest (cons_ne_nil _ _) ?_ hds
    r.keysChange_forgotten ?_ ⟨k.index, hlead, .inr ⟨k, hmem, hfresh, rfl⟩⟩ hlonger
  · have hl' : l.cursor.rest = ':' :: (lineGap broken width ++ ds) := by rw [hl.cursor, hrest]
    have hcontent : l.contentToken? = l.colon? >>= skipLineComment? := by
      rw [contentToken?, hl']
      simp [hgap]
    rw [token?_of_cons hl' (by decide), hcontent]
    refine exists_colon hl ?_ hfresh (hsafe k hmem hfresh) hindex hnest hrest hsplit hes
    rw [hlevels]
    exact hkey
  · show r.cursor.skip 1 = _
    rw [skip, hrest]
    rfl
  · have hforgotten : levelKeys (forgotten r.levels) = levelKeys vs := by
      rw [hlevels]
      rfl
    show ∀ k' ∈ levelKeys (forgotten r.levels), _
    rw [hforgotten]
    exact hopt.fresh _

/-- The state behind a key, its colon and the gap. -/
def afterKey (r : Standing) (v : Level) (vs : List Level) (isPlain : Bool) (key : List Char) (c : Cursor)
    (keyAllowed : Bool) : Standing where
  cursor := c
  kinds := r.kinds ++ (if opensBlock r r.cursor.mark.column then [.blockMappingStart] else []) ++
    [.key, .scalar isPlain (String.ofList key), .value]
  indent := if opensBlock r r.cursor.mark.column then r.cursor.mark.column else r.indent
  outer := if opensBlock r r.cursor.mark.column then r.indent :: r.outer else r.outer
  levels := { v with key := none, isUsed := true } :: vs
  keyAllowed := keyAllowed

/-- The key that the token at the cursor may turn out to be. -/
def keyHere (r : Standing) : SimpleKey where
  index := r.kinds.length
  isRequired := !r.inFlow && r.indent == r.cursor.mark.column
  mark := r.cursor.mark

theorem noted_of_allowed (hallowed : r.keyAllowed = true) (hlevels : r.levels = v :: vs) :
    r.noted = { v with key := some r.keyHere, isUsed := true } :: vs := by
  rw [noted, if_pos hallowed, hlevels]
  rfl

/-- Behind a scalar of one line no block has to end that did not have to in front of it. -/
theorem Closed.behindScalar (h : r.Closed) {key : List Char} (hline : '\n' ∉ taken) :
    (behindScalar r isPlain key ⟨ds, r.cursor.mark.beyond taken⟩ false).Closed := by
  rcases h with h | h | h
  · exact .inl (r.inFlow_noted.trans h)
  · refine .inr (.inl ?_)
    show r.indent ≤ ((r.cursor.mark.beyond taken).column : Int)
    rw [Mark.beyond_eq_ahead _ hline]
    show r.indent ≤ ((r.cursor.mark.column + taken.length : Nat) : Int)
    omega
  · exact .inr (.inr h)

/-- The colon puts the start of the block and the mark of the key in front of the scalar, which was the
    last token. -/
theorem past_behindColon (hallowed : r.keyAllowed = true) (hlevels : r.levels = v :: vs) (isPlain : Bool)
    (key taken : List Char) (broken : Bool) (width : Nat) (ds : List Char) :
    (behindColon (behindScalar r isPlain key
      ⟨':' :: (lineGap broken width ++ ds), r.cursor.mark.beyond taken⟩ false) r.keyHere).past
        broken width ds =
      afterKey r v vs isPlain key
        ⟨ds, r.cursor.mark.beyond (taken ++ ':' :: lineGap broken width)⟩ (broken && !r.inFlow) := by
  let r₁ := behindScalar r isPlain key
    ⟨':' :: (lineGap broken width ++ ds), r.cursor.mark.beyond taken⟩ false
  show (behindColon r₁ r.keyHere).past broken width ds = _
  have hlevels₁ : forgotten r₁.levels = { v with key := none, isUsed := true } :: vs := by
    show forgotten r.noted = _
    rw [noted_of_allowed hallowed hlevels]
    rfl
  have hflow₁ : r₁.inFlow = r.inFlow := r.inFlow_noted
  have hflow₂ : (behindColon r₁ r.keyHere).inFlow = r.inFlow := by
    rw [inFlow, inFlow, hlevels]
    show decide (1 < (forgotten r₁.levels).length) = _
    rw [hlevels₁]
    rfl
  have hopens : opensBlock
      { r₁ with kinds := r₁.kinds.take r.keyHere.index ++ .key :: r₁.kinds.drop r.keyHere.index }
      r.keyHere.mark.column = opensBlock r r.cursor.mark.column := by
    show (!r₁.inFlow && decide (r.indent < (r.cursor.mark.column : Int))) = _
    rw [hflow₁]
    rfl
  have hmark : (r₁.cursor.skip 1).mark.beyond (lineGap broken width) =
      r.cursor.mark.beyond (taken ++ ':' :: lineGap broken width) := by
    rw [Mark.beyond_append]
    rfl
  -- The key is noted at the number of tokens in front of it, so both insertions split there.
  have htake : ∀ xs, (r.kinds ++ xs).take r.keyHere.index = r.kinds := fun xs => take_left
  have hdrop : ∀ xs, (r.kinds ++ xs).drop r.keyHere.index = xs := fun xs => drop_left
  have hkinds : r₁.kinds = r.kinds ++ [TokenKind.scalar isPlain (String.ofList key)] := rfl
  rw [past, hflow₂, behindColon, afterKey, openedAt, hopens]
  simp only [hkinds, htake, hdrop, hlevels₁, hmark]
  cases opensBlock r r.cursor.mark.column with
  | false =>
    simp only [Bool.false_eq_true, if_false, Bool.false_or, append_nil, append_assoc]
    rfl
  | true =>
    simp only [if_true, Bool.false_or, append_assoc]
    rfl

/-- **A key and its colon.** Both tokens and the start of the block come in front of the key. -/
theorem run_key (hclosed : r.Closed) (hallowed : r.keyAllowed = true) (hlevels : r.levels = v :: vs)
    (hopt : Optional vs) (hnest : r.outer.length < nestingLimit) {key : List Char} (hline : '\n' ∉ taken)
    (hlength : taken.length ≤ 1024) (hgap : startsGap (lineGap broken width ++ ds) = true) (hds : Begins ds)
    (hstep : r.Step (behindScalar r isPlain key
      ⟨':' :: (lineGap broken width ++ ds), r.cursor.mark.beyond taken⟩ false)) :
    Run r (afterKey r v vs isPlain key
      ⟨ds, r.cursor.mark.beyond (taken ++ ':' :: lineGap broken width)⟩ (broken && !r.inFlow)) := by
  -- The key is still fresh at its colon: it stands on the same line and is not too long.
  have hfresh : r.keyHere.FreshAt (r.cursor.mark.beyond taken) := by
    rw [Mark.beyond_eq_ahead _ hline]
    exact ⟨Nat.le_refl _, Nat.add_le_add_left hlength _⟩
  have hclosed₁ : (behindScalar r isPlain key
      ⟨':' :: (lineGap broken width ++ ds), r.cursor.mark.beyond taken⟩ false).Closed :=
    hclosed.behindScalar hline
  have hcolon := step_colon hclosed₁ (noted_of_allowed hallowed hlevels) rfl hopt hfresh
    (by simp [behindScalar, keyHere]) hnest rfl hgap hds
  rw [past_behindColon hallowed hlevels] at hcolon
  exact .step hstep hcolon.run

/-! ### Entries of blocks -/

/-- The state right behind a dash. -/
def behindDash (r : Standing) : Standing :=
  let opened := openedAt r r.cursor.mark.column r.kinds.length .blockSequenceStart
  { opened with
    cursor := r.cursor.skip 1
    kinds := opened.kinds ++ [.blockEntry]
    levels := forgotten r.levels
    keyAllowed := true }

theorem openedAt_end_kinds (r : Standing) (column : Nat) (kind : TokenKind) :
    (openedAt r column r.kinds.length kind).kinds =
      r.kinds ++ (if opensBlock r column then [kind] else []) := by
  rw [openedAt]
  split
  · simp
  · simp

/-- **An entry of a block sequence.** -/
theorem step_dash (hclosed : r.Closed) (hflow : r.inFlow = false) (hallowed : r.keyAllowed = true)
    (hopt : Optional r.levels) (hnest : r.outer.length < nestingLimit) (width : Nat)
    (hrest : r.cursor.rest = '-' :: (lineGap false (width + 1) ++ ds)) (hds : Begins ds) :
    r.Step ((behindDash r).past false (width + 1) ds) := by
  have hgap : startsGap (lineGap false (width + 1) ++ ds) = true := rfl
  have hkinds : (behindDash r).kinds =
      r.kinds ++ ((if opensBlock r r.cursor.mark.column then [TokenKind.blockSequenceStart] else []) ++
        [TokenKind.blockEntry]) := by
    rw [behindDash]
    simp only [openedAt_end_kinds, append_assoc]
  have hkept := r.kept_append ((if opensBlock r r.cursor.mark.column then [TokenKind.blockSequenceStart] else []) ++
        [TokenKind.blockEntry])
  rw [← hkinds] at hkept
  refine Step.of_stands ['-'] false (width + 1) hclosed (fun l hl _ => ?_) hrest (cons_ne_nil _ _) ?_ hds
    r.keysChange_forgotten ((hopt.of_sublist (levelKeys_forgotten r.levels)).fresh _) hkept
    (by rw [hkinds, length_append, length_append]; simp)
  · have hl' : l.cursor.rest = '-' :: (lineGap false (width + 1) ++ ds) := by rw [hl.cursor, hrest]
    -- A dash in front of a gap is no part of the mark of a document, which has three of them.
    have hmark : l.cursor.atDocumentMark = false := by
      rw [atDocumentMark, hl']
      simp [lineGap, replicate_succ]
    have hcontent : l.contentToken? = l.dash? := by
      rw [contentToken?, hl']
      simp [hgap]
    have hflow' : l.inFlow = false := (inFlow_eq hl.levels).trans hflow
    have hallowed' : l.keyAllowed = true := hl.keyAllowed.trans hallowed
    have hcolumn : l.column = r.cursor.mark.column := by rw [column, hl.cursor]
    have hcount : l.count = r.kinds.length := hl.holds.count
    obtain ⟨l₁, hopen, htaken₁, hopened⟩ := exists_openBlock hl r.cursor.mark.column
      .blockSequenceStart l.cursor.mark hl.holds.1 (Nat.le_refl _) hnest
    obtain ⟨hlevels₁, hcursor₁⟩ := openedAt_levels r r.cursor.mark.column r.kinds.length
      .blockSequenceStart
    have hdrop := dropKey?_of_stands hopened (by rw [hlevels₁]; exact hopt)
    rw [token?_of_content hl' (by decide) hmark, hcontent, dash?, hcolumn, hcount]
    simp only [hflow', hallowed', Bool.not_true, Bool.and_false, Bool.false_eq_true, if_false,
      bind_eq_bind, hopen, bind_some, hdrop]
    refine ⟨_, rfl, htaken₁, ?_⟩
    rw [hlevels₁]
    have hmarked := hopened.marked .blockEntry (forgotten r.levels) true
    rw [hcursor₁] at hmarked
    exact hmarked
  · show r.cursor.skip 1 = _
    rw [skip, hrest]
    rfl

/-! ### Marks between brackets -/

/-- **A mark of one character.** -/
theorem step_mark (hclosed : r.Closed) (hb : b ∈ "[]\x7b\x7d,".toList) (hread : ∀ l : Lexer, l.Stands r →
      ∃ l₁ : Lexer, l.contentToken? = l₁.skipLineComment? ∧ l₁.taken = l.taken ∧ l₁.Stands r₁)
    (hrest : r.cursor.rest = b :: (lineGap broken width ++ ds)) (hds : Begins ds)
    (hcursor : r₁.cursor = r.cursor.skip 1) (hkinds : r₁.kinds = r.kinds ++ [kind])
    (hkeys : KeysChange r.kinds.length r.levels r₁.levels) (hopt : Optional r₁.levels) :
    r.Step (r₁.past broken width ds) := by
  obtain ⟨n, es, hsplit, hes⟩ := lineGap_behind broken width hds
  have hne : b ≠ '\n' ∧ b ≠ '%' ∧ b ≠ '-' ∧ b ≠ '.' := by
    refine ⟨?_, ?_, ?_, ?_⟩ <;> (rintro rfl; exact absurd hb (by decide))
  have hcursor' : r₁.cursor = ⟨lineGap broken width ++ ds, r.cursor.mark.beyond [b]⟩ := by
    rw [hcursor, skip, hrest, Mark.beyond, if_neg hne.1]
    rfl
  refine Step.of_stands [b] broken width hclosed (fun l hl _ => ?_) hrest (cons_ne_nil _ _) hcursor' hds
    hkeys (hopt.fresh _) (hkinds ▸ r.kept_append [kind]) (by rw [hkinds]; simp)
  · obtain ⟨l₁, hcontent, htaken, hstands⟩ := hread l hl
    have hl' : l.cursor.rest = b :: (lineGap broken width ++ ds) := by rw [hl.cursor, hrest]
    have hbehind : l₁.cursor.rest = replicate n ' ' ++ es := by
      rw [hstands.cursor, hcursor']
      exact hsplit
    obtain ⟨w, hw, hskip⟩ := skipLineComment?_of_clear n es hstands.window
      (hstands.cursor ▸ hstands.written) hbehind hes
    rw [token?_of_cons hl' hne.2, hcontent]
    exact ⟨_, hskip, htaken, { hstands with window := hw }⟩

/-- The state right behind an opening bracket. -/
def behindOpen (r : Standing) (kind : TokenKind) : Standing :=
  { r with
    cursor := r.cursor.skip 1
    kinds := r.kinds ++ [kind]
    levels := { start := r.kinds.length } :: r.noted
    keyAllowed := true }

/-- An opening bracket and the kind of its token. -/
inductive Opens : Char → TokenKind → Prop
  | sequence : Opens '[' .flowSequenceStart
  | mapping : Opens '\x7b' .flowMappingStart

/-- **An opening bracket.** -/
theorem step_open (hclosed : r.Closed) (hopt : Optional r.levels) (hfree : r.FreeKey)
    (hnest : r.levels.length ≤ nestingLimit) (hb : Opens b kind) (broken : Bool) (width : Nat)
    (hrest : r.cursor.rest = b :: (lineGap broken width ++ ds)) (hds : Begins ds) :
    r.Step ((behindOpen r kind).past broken width ds) := by
  refine step_mark hclosed (by cases hb <;> decide) (fun l hl => ?_) hrest hds rfl rfl
    r.keysChange_noted (optional_noted hopt hfree)
  have hcontent : l.contentToken? = l.openBracket? kind >>= skipLineComment? := by
    rw [contentToken?, hl.cursor, hrest]
    cases hb <;> simp
  have hlength : ¬ r.noted.length > nestingLimit := by
    rw [length_noted]
    omega
  have hcount : ({ l with levels := r.noted } : Lexer).count = r.kinds.length := hl.holds.count
  refine ⟨{ ({ l with levels := r.noted } : Lexer).emitMark kind 1 with
    levels := { start := r.kinds.length } :: r.noted, keyAllowed := true }, ?_, rfl, ?_⟩
  · rw [hcontent, openBracket?, noteKey?_of_stands hl hopt]
    simp only [bind_eq_bind, bind_some, hlength, if_false, hcount]
    rfl
  · exact hl.marked kind ({ start := r.kinds.length } :: r.noted) true

/-- The state right behind a closing bracket. -/
def behindClose (r : Standing) (levels : List Level) (kind : TokenKind) : Standing :=
  { r with
    cursor := r.cursor.skip 1
    kinds := r.kinds ++ [kind]
    levels
    keyAllowed := false }

/-- A closing bracket and the kind of its token. -/
inductive Shuts : Char → TokenKind → Prop
  | sequence : Shuts ']' .flowSequenceEnd
  | mapping : Shuts '\x7d' .flowMappingEnd

/-- **A closing bracket.** The levels around it stay as they are, if a key could have started inside or
    none has in front. -/
theorem step_close (hclosed : r.Closed) (hopt : Optional r.levels) {inner : Level}
    (hlevels : r.levels = inner :: v :: vs) (hused : inner.isUsed = true ∨ v.key = none) (hb : Shuts b kind)
    (broken : Bool) (width : Nat) (hrest : r.cursor.rest = b :: (lineGap broken width ++ ds)) (hds : Begins ds) :
    r.Step ((behindClose r (v :: vs) kind).past broken width ds) := by
  have hsub : (levelKeys (v :: vs)).Sublist (levelKeys r.levels) := by
    rw [hlevels]
    exact (sublist_cons_self inner (v :: vs)).filterMap _
  refine step_mark hclosed (by cases hb <;> decide) (fun l hl => ?_) hrest hds rfl rfl
    (.inl hsub) (hopt.of_sublist hsub)
  have hcontent : l.contentToken? = l.closeBracket? kind >>= skipLineComment? := by
    rw [contentToken?, hl.cursor, hrest]
    cases hb <;> simp
  have hleave : ({ l with levels := forgotten r.levels } : Lexer).leave = { l with levels := v :: vs } := by
    rw [leave, forgotten, hlevels]
    rcases hused with hused | hkey
    · simp [hused]
    · have hrelease : Level.release inner.start v = v := by
        obtain ⟨start, key, isUsed⟩ := v
        obtain rfl : key = none := hkey
        rfl
      simp [hrelease]
  refine ⟨{ ({ l with levels := v :: vs } : Lexer).emitMark kind 1 with keyAllowed := false }, ?_, rfl, ?_⟩
  · rw [hcontent, closeBracket?, dropKey?_of_stands hl hopt]
    simp only [bind_eq_bind, bind_some, hleave]
    rfl
  · exact hl.marked kind (v :: vs) false

/-- The state right behind a comma. -/
def behindComma (r : Standing) : Standing :=
  { r with
    cursor := r.cursor.skip 1
    kinds := r.kinds ++ [.flowEntry]
    levels := forgotten r.levels
    keyAllowed := true }

/-- **A comma.** -/
theorem step_comma (hclosed : r.Closed) (hopt : Optional r.levels) (broken : Bool) (width : Nat)
    (hrest : r.cursor.rest = ',' :: (lineGap broken width ++ ds)) (hds : Begins ds) :
    r.Step ((behindComma r).past broken width ds) := by
  refine step_mark hclosed (by decide) (fun l hl => ?_) hrest hds rfl rfl
    r.keysChange_forgotten (hopt.of_sublist (levelKeys_forgotten _))
  refine ⟨{ ({ l with levels := forgotten r.levels } : Lexer).emitMark .flowEntry 1 with
    keyAllowed := true }, ?_, rfl, ?_⟩
  · have hcontent : l.contentToken? = l.comma? >>= skipLineComment? := by
      rw [contentToken?, hl.cursor, hrest]
      simp
    rw [hcontent, comma?, dropKey?_of_stands hl hopt]
    rfl
  · exact hl.marked .flowEntry (forgotten r.levels) true

end Standing

end ServiceCompiler.Document
