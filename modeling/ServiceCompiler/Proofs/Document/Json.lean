import ServiceCompiler.Proofs.Document.Token

namespace ServiceCompiler.Document

open List Lexer Standing

/-!
# Tokens of the flow form

The indented form with brackets is read as the tokens that its tree describes, too.  Between brackets,
indentation means nothing; every part ends at a comma or at the line of the closing bracket.

* `jsonKinds` — the tokens of a document.
* `Standing.Passes` — the lexer gets behind a part with the given tokens.
* `passes_entries`, `passes_brackets` — the parts between brackets, one after the other.
* `json_finishes` — the tokens of a whole text.
-/

open Cursor

/-! ### The tokens of a document -/

variable {d : Document} {m : String × Document}

mutual

/-- The tokens of a document in the flow form. -/
def jsonKinds : Document → List TokenKind
  | .flag b => [.scalar true (if b then "true" else "false")]
  | .number n => [.scalar true (Text.decimalInt n)]
  | .text s => [.scalar false s]
  | .missingList => [.scalar true "null"]
  | .list items => .flowSequenceStart :: jsonItemKinds true items ++ [.flowSequenceEnd]
  | .record members => .flowMappingStart :: jsonMemberKinds true members ++ [.flowMappingEnd]

/-- The tokens of the items of a list; a comma stands in front of all but the first one. -/
def jsonItemKinds : Bool → List Document → List TokenKind
  | _, [] => []
  | first, d :: rest => (if first then [] else [.flowEntry]) ++ jsonKinds d ++ jsonItemKinds false rest

/-- The tokens of the members of a record; a comma stands in front of all but the first one. -/
def jsonMemberKinds : Bool → List (String × Document) → List TokenKind
  | _, [] => []
  | first, (key, d) :: rest =>
    (if first then [] else [.flowEntry]) ++ [.key, .scalar false key, .value] ++ jsonKinds d
      ++ jsonMemberKinds false rest

end

namespace Standing

variable {r : Standing} {v : Level} {vs : List Level} {ks : List TokenKind} {ds : List Char}

/-! ### Parts between brackets -/

/-- The state in front of a bracket, inside of others or not. -/
structure AtBracket (r : Standing) (v : Level) (vs : List Level) : Prop where
  levels : r.levels = v :: vs
  optional : Optional r.levels
  indent : r.indent = -1
  outer : r.outer = []
  freeKey : r.FreeKey

/-- The state in front of a part between brackets, with the levels around it. -/
structure Between (r : Standing) (v : Level) (vs : List Level) : Prop extends r.AtBracket v vs where
  inside : vs ≠ []

/-- What stands behind a part: a comma, or the line of a closing bracket. -/
inductive PartEnd : Bool → Nat → List Char → Prop
  | comma (ds : List Char) : PartEnd false 0 (',' :: ds)
  | closing (width : Nat) {b : Char} (ds : List Char) : b = ']' ∨ b = '\x7d' → PartEnd true width (b :: ds)

/-- The lexer gets behind a part.  Where a key could have started, that is known of the level. -/
def Passes (r : Standing) (v : Level) (vs : List Level) (ks : List TokenKind) (ds : List Char) : Prop :=
  ∃ (r' : Standing) (v' : Level), Run r r' ∧ r'.Between v' vs ∧ r'.cursor.rest = ds ∧
    r'.kinds = r.kinds ++ ks ∧ (r.keyAllowed = true ∨ v.isUsed = true → v'.isUsed = true)

theorem PartEnd.begins {broken : Bool} {width : Nat} (h : PartEnd broken width ds) : Begins ds := by
  cases h with
  | comma ds => exact begins_cons (by decide) (by decide) (by decide) _
  | closing width ds hb => rcases hb with rfl | rfl <;> exact begins_cons (by decide) (by decide) (by decide) _

theorem inFlow_of_inside (hlevels : r.levels = v :: vs) (hinside : vs ≠ []) : r.inFlow = true := by
  obtain ⟨w, ws, rfl⟩ := exists_cons_of_ne_nil hinside
  rw [inFlow, hlevels]
  exact decide_eq_true (by simp)

theorem Between.of_levels (hlevels : r.levels = v :: vs) (hinside : vs ≠ []) (hoptional : Optional r.levels)
    (hindent : r.indent = -1) (houter : r.outer = []) : r.Between v vs where
  levels := hlevels
  optional := hoptional
  indent := hindent
  outer := houter
  freeKey _ := .inl (inFlow_of_inside hlevels hinside)
  inside := hinside

section Between

variable (h : r.Between v vs)
include h

theorem Between.inFlow : r.inFlow = true := inFlow_of_inside h.levels h.inside

theorem Between.closed : r.Closed := .inl h.inFlow

theorem Between.exists_noted : ∃ w : Level, r.noted = w :: vs ∧
    (r.keyAllowed = true ∨ v.isUsed = true → w.isUsed = true) ∧
    (r.keyAllowed = false → v.key = none → w.key = none) := by
  rw [noted, h.levels]
  cases r.keyAllowed with
  | true => exact ⟨_, rfl, fun _ => rfl, fun h => absurd h (by decide)⟩
  | false => exact ⟨v, rfl, fun h => h.resolve_left (by decide), fun _ h => h⟩

/-- Behind a part that leaves the levels with a key noted. -/
theorem Between.passes {r' : Standing} (hrun : Run r r') (hlevels : r'.levels = r.noted) (hrest : r'.cursor.rest = ds)
    (hkinds : r'.kinds = r.kinds ++ ks) (hindent : r'.indent = r.indent) (houter : r'.outer = r.outer) :
    r.Passes v vs ks ds := by
  obtain ⟨w, hnoted, hused, -⟩ := h.exists_noted
  exact ⟨r', w, hrun, .of_levels (hlevels.trans hnoted) h.inside
    (hlevels ▸ optional_noted h.optional h.freeKey) (hindent.trans h.indent) (houter.trans h.outer), hrest, hkinds, hused⟩

end Between

/-- A plain word. -/
theorem passes_word (h : r.Between v vs) {word : List Char} (hne : word ≠ [])
    (hword : ∀ c ∈ word, Text.isAlphanumeric c) {broken : Bool} {width : Nat} (hend : PartEnd broken width ds)
    (hrest : r.cursor.rest = word ++ (lineGap broken width ++ ds)) :
    r.Passes v vs [.scalar true (String.ofList word)] ds := by
  have hcursor : r.cursor = ⟨word ++ (lineGap broken width ++ ds), r.cursor.mark⟩ := by rw [← hrest]
  obtain ⟨gap, hplain⟩ : ∃ gap, r.cursor.plain? r.inFlow (r.indent + 1) = some (word, gap,
      ⟨ds, r.cursor.mark.beyond (word ++ lineGap broken width)⟩) := by
    rw [h.inFlow, hcursor]
    cases hend with
    | comma ds =>
      have hnone : lineGap false 0 = [] := rfl
      rw [hnone, append_nil]
      exact ⟨_, plain?_word hne hword rfl rfl _⟩
    | closing width ds hb => exact ⟨_, plain?_flowLine hne hword hb _ _⟩
  have hstep := step_word h.closed h.optional hne hword (fresh_of_freeKey h.optional h.freeKey _) hplain hrest
    hend.begins
  exact h.passes hstep.run rfl rfl rfl rfl rfl

/-- The step over a text between quotes. -/
theorem step_jsonText (h : r.Between v vs) {s : String} (hs : ∀ c ∈ s.toList, isKept c) {broken : Bool}
    {width : Nat} (hds : Begins ds) (hquote : (lineGap broken width ++ ds).head? ≠ some '\'')
    (hrest : r.cursor.rest = jsonText s ++ (lineGap broken width ++ ds)) :
    r.Step ((behindScalar r false s.toList ⟨lineGap broken width ++ ds, r.cursor.mark.beyond (jsonText s)⟩
      false).past broken width ds) := by
  have hquoted : r.cursor.quoted? '"' = some (s.toList, ⟨lineGap broken width ++ ds,
      r.cursor.mark.beyond (jsonText s)⟩) := by
    have hcursor : r.cursor = ⟨jsonText s ++ (lineGap broken width ++ ds), r.cursor.mark⟩ := by rw [← hrest]
    rw [hcursor]
    exact quoted?_written (.inr rfl) wordCode_json hs hquote _
  exact step_quoted h.closed h.optional (.inr rfl) (fresh_of_freeKey h.optional h.freeKey _) hquoted hrest rfl hds

/-- A text between quotes. -/
theorem passes_text (h : r.Between v vs) {s : String} (hs : ∀ c ∈ s.toList, isKept c) {broken : Bool}
    {width : Nat} (hend : PartEnd broken width ds)
    (hrest : r.cursor.rest = jsonText s ++ (lineGap broken width ++ ds)) :
    r.Passes v vs [.scalar false s] ds := by
  have hstep := step_jsonText h hs hend.begins (by cases hend <;> simp [lineGap]) hrest
  refine h.passes hstep.run rfl rfl ?_ rfl rfl
  show r.kinds ++ [.scalar false (String.ofList s.toList)] = _
  rw [String.ofList_toList]

/-! ### Brackets -/

/-- Documents of a depth are read as their tokens between brackets. -/
def ReadsFlow (depth : Nat) : Prop :=
  ∀ (d : Document) (level : Nat) (r : Standing) (v : Level) (vs : List Level) (broken : Bool) (width : Nat)
    (ds : List Char), Writable (isKept ·) depth d → r.Between v vs →
    (isFilled d = true ∨ (v.key = none ∧ r.keyAllowed = false)) →
    r.levels.length + depth ≤ nestingLimit → PartEnd broken width ds →
    r.cursor.rest = jsonChars level d ++ (lineGap broken width ++ ds) → r.Passes v vs (jsonKinds d) ds

theorem begins_intercalate {α : Type} (text : α → List Char) {a : α} (h : ∀ tail, Begins (text a ++ tail))
    (sep : List Char) (entries : List α) (tail : List Char) :
    Begins (sep.intercalate ((a :: entries).map text) ++ tail) := by
  cases entries with
  | nil =>
    rw [map_singleton, intercalate_singleton]
    exact h _
  | cons e entries =>
    rw [map_cons, map_cons, intercalate_cons_cons, append_assoc, append_assoc]
    exact h _

/-- **The parts between brackets, one after the other.** -/
theorem passes_entries {α : Type} (text : α → List Char) (kinds : α → List TokenKind) (P : α → Prop)
    (inner outer : Nat) (hbegins : ∀ a, P a → ∀ tail, Begins (text a ++ tail))
    (hentry : ∀ (r : Standing) (v : Level) (a : α) (broken : Bool) (width : Nat) (ds : List Char), P a →
      r.Between v vs → r.keyAllowed = true → PartEnd broken width ds →
      r.cursor.rest = text a ++ (lineGap broken width ++ ds) → r.Passes v vs (kinds a) ds)
    {a : α} {entries : List α} (hentries : ∀ e ∈ a :: entries, P e) (h : r.Between v vs)
    (hallowed : r.keyAllowed = true) {b : Char} (hb : b = ']' ∨ b = '\x7d')
    (hrest : r.cursor.rest = (',' :: lineGap true inner).intercalate ((a :: entries).map text) ++
      (lineGap true outer ++ b :: ds)) :
    r.Passes v vs (kinds a ++ entries.flatMap fun e => .flowEntry :: kinds e) (b :: ds) := by
  induction entries generalizing r v a with
  | nil =>
    rw [map_singleton, intercalate_singleton] at hrest
    rw [flatMap_nil, append_nil]
    exact hentry r v a _ _ _ (hentries a mem_cons_self) h hallowed (.closing outer ds hb) hrest
  | cons a' entries ih =>
    obtain ⟨ha, hentries'⟩ := forall_mem_cons.1 hentries
    let tail := (',' :: lineGap true inner).intercalate ((a' :: entries).map text) ++
      (lineGap true outer ++ b :: ds)
    have hrest' : r.cursor.rest = text a ++ (lineGap false 0 ++ ',' :: (lineGap true inner ++ tail)) := by
      rw [hrest, map_cons, map_cons, intercalate_cons_cons]
      simp [tail, lineGap]
    have htail : Begins tail := begins_intercalate text (hbegins a' (hentries' a' mem_cons_self)) _ _ _
    obtain ⟨r₁, v₁, hrun₁, h₁, hrest₁, hkinds₁, hused₁⟩ := hentry r v a _ _ _ ha h hallowed (.comma _) hrest'
    -- The comma makes room for a key again.
    have hcomma := step_comma h₁.closed h₁.optional true inner hrest₁ htail
    have hlevels : forgotten r₁.levels = { v₁ with key := none } :: vs := by
      rw [h₁.levels]
      rfl
    have h₂ : ((behindComma r₁).past true inner tail).Between { v₁ with key := none } vs :=
      .of_levels hlevels h₁.inside (h₁.optional.of_sublist (levelKeys_forgotten _)) h₁.indent h₁.outer
    obtain ⟨r₂, v₂, hrun₂, h₂', hrest₂, hkinds₂, hused₂⟩ := ih hentries' h₂ rfl rfl
    refine ⟨r₂, v₂, hrun₁.trans (.step hcomma hrun₂), h₂', hrest₂, ?_, fun _ => hused₂ (.inl rfl)⟩
    rw [hkinds₂]
    show r₁.kinds ++ [.flowEntry] ++ _ = _
    rw [hkinds₁]
    simp

/-- The lexer gets behind brackets, where the levels are those around them. -/
def PassesBrackets (r : Standing) (ks : List TokenKind) (ds : List Char) : Prop :=
  ∃ r' : Standing, Run r r' ∧ r'.cursor.rest = ds ∧ r'.levels = r.noted ∧ r'.kinds = r.kinds ++ ks ∧
    r'.indent = r.indent ∧ r'.outer = r.outer

theorem AtBracket.between_open (h : r.AtBracket v vs) (start : TokenKind) (inner : Bool) (n : Nat)
    (ds : List Char) : ((behindOpen r start).past inner n ds).Between { start := r.kinds.length } r.noted := by
  refine .of_levels rfl ?_ (optional_noted h.optional h.freeKey) h.indent h.outer
  rw [noted, h.levels]
  split <;> exact cons_ne_nil _ _

section Brackets

variable {left right : Char} {start stop : TokenKind} (hopens : Opens left start) (hshuts : Shuts right stop)
  {broken : Bool} {width : Nat} (h : r.AtBracket v vs) (hnest : r.levels.length ≤ nestingLimit)
include hopens hshuts h hnest

/-- Brackets around nothing. -/
theorem passes_empty {w : Level} (hnoted : r.noted = w :: vs) (hkey : w.key = none)
    (hrest : r.cursor.rest = left :: right :: (lineGap broken width ++ ds)) (hds : Begins ds) :
    r.PassesBrackets [start, stop] ds := by
  have hbegins : Begins (right :: (lineGap broken width ++ ds)) := by
    cases hshuts <;> exact begins_cons (by decide) (by decide) (by decide) _
  have hstep₁ := step_open (.inr (.inr h.outer)) h.optional h.freeKey hnest hopens false 0 hrest hbegins
  have hinside := h.between_open start false 0 (right :: (lineGap broken width ++ ds))
  have hstep₂ := step_close hinside.closed hinside.optional (hinside.levels.trans (by rw [hnoted])) (.inr hkey)
    hshuts broken width rfl hds
  refine ⟨_, hstep₁.run.trans hstep₂.run, rfl, hnoted.symm, ?_, rfl, rfl⟩
  show r.kinds ++ [start] ++ [stop] = _
  rw [append_assoc]
  rfl

/-- **Brackets around parts.** -/
theorem passes_filled {α : Type} (text : α → List Char) (kinds : α → List TokenKind) (P : α → Prop)
    (inner outer : Nat) (hbegins : ∀ a, P a → ∀ tail, Begins (text a ++ tail))
    (hentry : ∀ (r' : Standing) (v : Level) (a : α) (broken : Bool) (width : Nat) (ds : List Char), P a →
      r'.Between v r.noted → r'.keyAllowed = true → PartEnd broken width ds →
      r'.cursor.rest = text a ++ (lineGap broken width ++ ds) → r'.Passes v r.noted (kinds a) ds)
    {a : α} {entries : List α} (hentries : ∀ e ∈ a :: entries, P e)
    (hrest : r.cursor.rest = left :: (lineGap true inner ++
      ((',' :: lineGap true inner).intercalate ((a :: entries).map text) ++
        (lineGap true outer ++ right :: (lineGap broken width ++ ds))))) (hds : Begins ds) :
    r.PassesBrackets (start :: (kinds a ++ entries.flatMap fun e => .flowEntry :: kinds e) ++ [stop]) ds := by
  have hfirst := begins_intercalate text (hbegins a (hentries a mem_cons_self)) (',' :: lineGap true inner)
    entries (lineGap true outer ++ right :: (lineGap broken width ++ ds))
  have hstep₁ := step_open (.inr (.inr h.outer)) h.optional h.freeKey hnest hopens true inner hrest hfirst
  have hright : right = ']' ∨ right = '\x7d' := by
    cases hshuts
    · exact .inl rfl
    · exact .inr rfl
  obtain ⟨r₂, v₂, hrun, h₂, hrest₂, hkinds, hused⟩ := passes_entries text kinds P inner outer hbegins hentry
    hentries (h.between_open start true inner _) rfl hright rfl
  obtain ⟨w, ws, hnoted⟩ := exists_cons_of_ne_nil h₂.inside
  have hstep₂ := step_close h₂.closed h₂.optional (h₂.levels.trans (by rw [hnoted]))
    (.inl (hused (.inl rfl))) hshuts broken width hrest₂ hds
  refine ⟨_, hstep₁.run.trans (hrun.trans hstep₂.run), rfl, hnoted.symm, ?_, ?_, ?_⟩
  · show r₂.kinds ++ [stop] = _
    rw [hkinds]
    show r.kinds ++ [start] ++ _ ++ [stop] = _
    simp
  · exact h₂.indent.trans h.indent.symm
  · exact h₂.outer.trans h.outer.symm

end Brackets

/-! ### Documents -/

theorem jsonItems_eq (level : Nat) (items : List Document) : jsonItems level items = items.map (jsonChars level) := by
  induction items with
  | nil => rw [jsonItems, map_nil]
  | cons d items ih => rw [jsonItems, map_cons, ih]

def jsonMember (level : Nat) (m : String × Document) : List Char :=
  jsonText m.1 ++ ':' :: ' ' :: jsonChars level m.2

theorem jsonMembers_eq (level : Nat) (members : List (String × Document)) :
    jsonMembers level members = members.map (jsonMember level) := by
  induction members with
  | nil => rw [jsonMembers, map_nil]
  | cons m members ih =>
    rw [jsonMembers, map_cons, ih, jsonMember]
    simp

theorem jsonItemKinds_false (items : List Document) :
    jsonItemKinds false items = items.flatMap fun d => .flowEntry :: jsonKinds d := by
  induction items with
  | nil => rw [jsonItemKinds, flatMap_nil]
  | cons d items ih =>
    rw [jsonItemKinds, flatMap_cons, ih]
    rfl

def jsonMemberKind (m : String × Document) : List TokenKind :=
  [.key, .scalar false m.1, .value] ++ jsonKinds m.2

theorem jsonMemberKinds_false (members : List (String × Document)) :
    jsonMemberKinds false members = members.flatMap fun m => .flowEntry :: jsonMemberKind m := by
  induction members with
  | nil => rw [jsonMemberKinds, flatMap_nil]
  | cons m members ih =>
    rw [jsonMemberKinds, flatMap_cons, ih, jsonMemberKind]
    rfl

/-- The parts of a list or record, as they follow its opening bracket. -/
theorem jsonParts_cons {α : Type} (text : α → List Char) (level : Nat) (left right : Char) (a : α)
    (entries : List α) (tail : List Char) :
    jsonParts level left right ((a :: entries).map text) ++ tail =
      left :: (lineGap true (2 * (level + 1)) ++
        ((',' :: lineGap true (2 * (level + 1))).intercalate ((a :: entries).map text) ++
          (lineGap true (2 * level) ++ right :: tail))) := by
  rw [jsonParts, if_neg (by simp)]
  simp [jsonBreak, lineGap]

theorem begins_jsonText (s : String) (tail : List Char) : Begins (jsonText s ++ tail) :=
  begins_cons (by decide) (by decide) (by decide) _

/-- The words that stand for flags, numbers and missing lists. -/
theorem word_cases {p : Char → Prop} {depth : Nat} (hd : Writable p depth d) :
    (∃ s, d = .text s) ∨ (∃ items, d = .list items) ∨ (∃ members, d = .record members) ∨
      ∃ s : String, s.toList ≠ [] ∧ (∀ c ∈ s.toList, Text.isAlphanumeric c) ∧
        (∀ level, jsonChars level d = s.toList) ∧ jsonKinds d = [.scalar true s] := by
  cases d with
  | text s => exact .inl ⟨s, rfl⟩
  | list items => exact .inr (.inl ⟨items, rfl⟩)
  | record members => exact .inr (.inr (.inl ⟨members, rfl⟩))
  | flag b =>
    refine .inr (.inr (.inr ⟨if b then "true" else "false", ?_, ?_, fun level => rfl, rfl⟩))
    · cases b <;> decide
    · exact all_eq_true.1 (by cases b <;> decide)
  | missingList =>
    exact .inr (.inr (.inr ⟨"null", by decide, all_eq_true.1 (by decide), fun level => rfl, rfl⟩))
  | number n =>
    cases depth with
    | zero => exact absurd hd not_false
    | succ depth =>
      obtain ⟨m, rfl⟩ := Int.eq_ofNat_of_zero_le hd.1
      exact .inr (.inr (.inr ⟨Text.decimal m, Text.decimal_ne_empty m,
        fun c hc => Text.isAlphanumeric_of_mem_decimal hc, fun level => rfl, rfl⟩))

theorem begins_jsonParts (level : Nat) {left : Char} (right : Char) (hc : isLineChar left) (hspace : left ≠ ' ')
    (hhash : left ≠ '#') (parts : List (List Char)) (tail : List Char) :
    Begins (jsonParts level left right parts ++ tail) := by
  rw [jsonParts]
  split <;> exact begins_cons hc hspace hhash _

/-- A document begins with a bracket, a quote or a word. -/
theorem begins_jsonChars {p : Char → Prop} {depth : Nat} (hd : Writable p depth d) (level : Nat) (tail : List Char) :
    Begins (jsonChars level d ++ tail) := by
  rcases word_cases hd with ⟨s, rfl⟩ | ⟨items, rfl⟩ | ⟨members, rfl⟩ | ⟨s, hne, hs, hchars, -⟩
  · rw [jsonChars]
    exact begins_cons (by decide) (by decide) (by decide) _
  · rw [jsonChars]
    exact begins_jsonParts level _ (by decide) (by decide) (by decide) _ _
  · rw [jsonChars]
    exact begins_jsonParts level _ (by decide) (by decide) (by decide) _ _
  · obtain ⟨c, cs, hcs⟩ := exists_cons_of_ne_nil hne
    have hc : Text.isAlphanumeric c = true := hs c (by rw [hcs]; exact mem_cons_self)
    rw [hchars, hcs]
    exact begins_cons (isLineChar_of_isAlphanumeric hc) (ne_of_isAlphanumeric hc (by decide))
      (ne_of_isAlphanumeric hc (by decide)) _

/-- No character of a key is escaped. -/
theorem jsonText_of_isKey {key : String} (h : isKey key = true) : jsonText key = '"' :: key.toList ++ ['"'] := by
  have hcode : key.toList.flatMap escapeJson = key.toList.flatMap fun c => [c] := by
    refine flatMap_congr fun c hc => ?_
    have halnum := isAlphanumeric_of_isKey h c hc
    have hrange : 0x20 ≤ c.toNat ∧ c.toNat ≤ 0x7e := by
      simpa [isPrintable] using isPrintable_of_isAlphanumeric halnum
    have hne : ∀ d, Text.isAlphanumeric d = false → c ≠ d := fun d => ne_of_isAlphanumeric halnum
    have hnumbered : ¬(c.toNat < 0x20 ∨ c = '<' ∨ c = '>' ∨ c = '&' ∨ c.toNat = 0x2028 ∨ c.toNat = 0x2029) := by
      simp only [hne '<' (by decide), hne '>' (by decide), hne '&' (by decide), false_or]
      omega
    rw [escapeJson, if_neg (hne _ (by decide)), if_neg (hne _ (by decide)), if_neg (hne _ (by decide)),
      if_neg (hne _ (by decide)), if_neg (hne _ (by decide)), if_neg (by omega), if_neg (by omega), if_neg hnumbered]
  rw [jsonText, hcode, flatMap_singleton']

/-- **A member of a record.** -/
theorem passes_member {depth : Nat} (hreads : ReadsFlow depth) (hkey : isKey m.1 = true)
    (hd : Writable (isKept ·) depth m.2) (h : r.Between v vs) (hallowed : r.keyAllowed = true)
    (hnest : r.levels.length + depth ≤ nestingLimit) {level : Nat} {broken : Bool} {width : Nat}
    (hend : PartEnd broken width ds) (hrest : r.cursor.rest = jsonMember level m ++ (lineGap broken width ++ ds)) :
    r.Passes v vs (jsonMemberKind m) ds := by
  let tail := jsonChars level m.2 ++ (lineGap broken width ++ ds)
  have hrest' : r.cursor.rest = jsonText m.1 ++ (lineGap false 0 ++ ':' :: (lineGap false 1 ++ tail)) := by
    rw [hrest, jsonMember]
    simp [lineGap, tail]
  have hline := notMem_newline_of_line (writtenAs_jsonText (isKept_of_isKey hkey)).line.1
  have hlength : (jsonText m.1).length ≤ 1024 := by
    have := length_le_of_isKey hkey
    rw [jsonText_of_isKey hkey, length_append, length_cons, length_singleton]
    omega
  have htail : Begins tail := begins_jsonChars hd level _
  have hstep := step_jsonText h (isKept_of_isKey hkey)
    (begins_cons (by decide) (by decide) (by decide) _) (by simp [lineGap]) hrest'
  rw [past_nothing (':' :: (lineGap false 1 ++ tail)) rfl] at hstep
  have hsub : (levelKeys vs).Sublist (levelKeys r.levels) := by
    rw [h.levels]
    exact (sublist_cons_self v vs).filterMap _
  have hrun := run_key h.closed hallowed h.levels (h.optional.of_sublist hsub)
    (by rw [h.outer]; decide) hline hlength rfl htail hstep
  -- Behind the colon no key may start, and none has.
  let r₁ := afterKey r v vs false m.1.toList
    ⟨tail, r.cursor.mark.beyond (jsonText m.1 ++ ':' :: lineGap false 1)⟩ (false && !r.inFlow)
  have hopens : opensBlock r r.cursor.mark.column = false := by
    rw [opensBlock, h.inFlow]
    rfl
  have hblocks : r₁.indent = r.indent ∧ r₁.outer = r.outer := by
    show (if opensBlock r r.cursor.mark.column then _ else _) = _ ∧
      (if opensBlock r r.cursor.mark.column then _ else _) = _
    rw [hopens]
    exact ⟨rfl, rfl⟩
  have h₁ : r₁.Between { v with key := none, isUsed := true } vs := .of_levels rfl h.inside
    (h.optional.of_sublist hsub) (hblocks.1.trans h.indent) (hblocks.2.trans h.outer)
  have hkinds₁ : r₁.kinds = r.kinds ++ [.key, .scalar false m.1, .value] := by
    show r.kinds ++ (if opensBlock r r.cursor.mark.column then _ else _) ++ _ = _
    rw [hopens, String.ofList_toList]
    simp
  have hlevels₁ : r₁.levels.length = r.levels.length := by
    rw [h₁.levels, h.levels]
    rfl
  obtain ⟨r₂, v₂, hrun₂, h₂, hrest₂, hkinds₂, hused₂⟩ := hreads m.2 level r₁ _ vs broken width ds hd h₁
    (.inr ⟨rfl, rfl⟩) (by rw [hlevels₁]; exact hnest) hend rfl
  refine ⟨r₂, v₂, hrun.trans hrun₂, h₂, hrest₂, ?_, fun _ => hused₂ (.inr rfl)⟩
  rw [hkinds₂, hkinds₁, jsonMemberKind, append_assoc]

/-- The state behind brackets that are parts themselves. -/
theorem PassesBrackets.passes (h : r.Between v vs) (hpasses : r.PassesBrackets ks ds) : r.Passes v vs ks ds := by
  obtain ⟨r', hrun, hrest, hlevels, hkinds, hindent, houter⟩ := hpasses
  exact h.passes hrun hlevels hrest hkinds hindent houter

section Collections

variable {depth : Nat} (hreads : ReadsFlow depth) (h : r.AtBracket v vs)
  (hnest : r.levels.length + (depth + 1) ≤ nestingLimit) {level : Nat} {broken : Bool} {width : Nat}
  (hds : Begins ds)
include hreads h hnest hds

/-- **A record between braces.** -/
theorem passes_record {members : List (String × Document)}
    (hmembers : ∀ e ∈ m :: members, isKey e.1 = true ∧ Writable (isKept ·) depth e.2)
    (hrest : r.cursor.rest = jsonChars level (.record (m :: members)) ++ (lineGap broken width ++ ds)) :
    r.PassesBrackets (jsonKinds (.record (m :: members))) ds := by
  rw [jsonChars, jsonMembers_eq, jsonParts_cons] at hrest
  have hkinds : jsonKinds (.record (m :: members)) = .flowMappingStart :: (jsonMemberKind m ++
      members.flatMap fun e => .flowEntry :: jsonMemberKind e) ++ [.flowMappingEnd] := by
    rw [jsonKinds, jsonMemberKinds, jsonMemberKinds_false]
    rfl
  rw [hkinds]
  refine passes_filled .mapping .mapping h (by omega) (jsonMember (level + 1)) jsonMemberKind
    (fun e => isKey e.1 = true ∧ Writable (isKept ·) depth e.2) _ _ (fun e _ tail => ?_) ?_ hmembers hrest hds
  · rw [jsonMember, append_assoc]
    exact begins_jsonText e.1 _
  · intro r' v' e broken width ds he h' hallowed hend hrest'
    refine passes_member hreads he.1 he.2 h' hallowed ?_ hend hrest'
    rw [h'.levels, length_cons, length_noted]
    omega

/-- **A list between brackets.** -/
theorem passes_list {items : List Document}
    (hitems : ∀ e ∈ d :: items, isFilled e = true ∧ Writable (isKept ·) depth e)
    (hrest : r.cursor.rest = jsonChars level (.list (d :: items)) ++ (lineGap broken width ++ ds)) :
    r.PassesBrackets (jsonKinds (.list (d :: items))) ds := by
  rw [jsonChars, jsonItems_eq, jsonParts_cons] at hrest
  have hkinds : jsonKinds (.list (d :: items)) = .flowSequenceStart :: (jsonKinds d ++
      items.flatMap fun e => .flowEntry :: jsonKinds e) ++ [.flowSequenceEnd] := by
    rw [jsonKinds, jsonItemKinds, jsonItemKinds_false]
    rfl
  rw [hkinds]
  refine passes_filled .sequence .sequence h (by omega) (jsonChars (level + 1)) jsonKinds
    (fun e => isFilled e = true ∧ Writable (isKept ·) depth e) _ _ (fun e he tail => begins_jsonChars he.2 _ _) ?_ hitems
    hrest hds
  intro r' v' e broken width ds he h' hallowed hend hrest'
  refine hreads e (level + 1) r' v' _ broken width ds he.2 h' (.inl he.1) ?_ hend hrest'
  rw [h'.levels, length_cons, length_noted]
  omega

end Collections

/-- **Every document between brackets is read as its tokens.** -/
theorem readsFlow (depth : Nat) : ReadsFlow depth := by
  induction depth with
  | zero => exact fun d _ _ _ _ _ _ _ hd => absurd hd not_false
  | succ depth ih =>
    intro d level r v vs broken width ds hd h hfilled hnest hend hrest
    have hempty : isFilled d = false → ∃ w : Level, r.noted = w :: vs ∧ w.key = none := by
      intro hnot
      obtain ⟨hkey, hallowed⟩ := hfilled.resolve_left (by rw [hnot]; decide)
      obtain ⟨w, hnoted, -, hw⟩ := h.exists_noted
      exact ⟨w, hnoted, hw hallowed hkey⟩
    rcases word_cases hd with ⟨s, rfl⟩ | ⟨items, rfl⟩ | ⟨members, rfl⟩ | ⟨s, hne, hs, hchars, hkinds⟩
    · exact passes_text h hd hend hrest
    · cases items with
      | nil =>
        obtain ⟨w, hnoted, hkey⟩ := hempty rfl
        exact (passes_empty .sequence .sequence h.toAtBracket (by omega) hnoted hkey hrest hend.begins).passes h
      | cons d items => exact (passes_list ih h.toAtBracket hnest hend.begins hd hrest).passes h
    · cases members with
      | nil =>
        obtain ⟨w, hnoted, hkey⟩ := hempty rfl
        exact (passes_empty .mapping .mapping h.toAtBracket (by omega) hnoted hkey hrest hend.begins).passes h
      | cons m members => exact (passes_record ih h.toAtBracket hnest hend.begins hd hrest).passes h
    · rw [hchars] at hrest
      rw [hkinds]
      have hpasses := passes_word h hne hs hend hrest
      rwa [String.ofList_toList] at hpasses

end Standing

/-! ### Whole texts -/

theorem isWritten_intercalate {sep : List Char} {parts : List (List Char)} (hsep : IsWritten sep)
    (h : ∀ p ∈ parts, IsWritten p) : IsWritten (sep.intercalate parts) := by
  induction parts with
  | nil => exact isWritten_nil
  | cons p parts ih =>
    obtain ⟨hp, hparts⟩ := forall_mem_cons.1 h
    cases parts with
    | nil =>
      rw [intercalate_singleton]
      exact hp
    | cons q parts =>
      rw [intercalate_cons_cons]
      exact (hp.append hsep).append (ih hparts)

theorem isWritten_jsonParts {level : Nat} {left right : Char} {parts : List (List Char)}
    (hleft : isReadable left) (hright : isReadable right) (h : ∀ p ∈ parts, IsWritten p) :
    IsWritten (jsonParts level left right parts) := by
  have hend : IsWritten [right] := .cons hright isWritten_nil
  have hbreak : ∀ level, IsWritten (jsonBreak level) := fun level => isWritten_lineGap true (2 * level)
  rw [jsonParts]
  split
  · exact .cons hleft hend
  · exact ((((hbreak _).cons hleft).append (isWritten_intercalate ((hbreak _).cons (by decide)) h)).append
      (hbreak _)).append hend

/-- **Nothing is refused in the text of a document.** -/
theorem isWritten_jsonChars {depth : Nat} (hd : Writable (isKept ·) depth d) (level : Nat) :
    IsWritten (jsonChars level d) := by
  induction depth generalizing d level with
  | zero => exact absurd hd not_false
  | succ depth ih =>
    rcases word_cases hd with ⟨s, rfl⟩ | ⟨items, rfl⟩ | ⟨members, rfl⟩ | ⟨s, -, hs, hchars, -⟩
    · exact .of_line (writtenAs_jsonText hd).line.1
    · rw [jsonChars, jsonItems_eq]
      refine isWritten_jsonParts (by decide) (by decide) fun p hp => ?_
      obtain ⟨d, hmem, rfl⟩ := mem_map.1 hp
      exact ih (hd d hmem).2 _
    · rw [jsonChars, jsonMembers_eq]
      refine isWritten_jsonParts (by decide) (by decide) fun p hp => ?_
      obtain ⟨m, hmem, rfl⟩ := mem_map.1 hp
      obtain ⟨hkey, hd'⟩ := hd m hmem
      exact (IsWritten.of_line (writtenAs_jsonText (isKept_of_isKey hkey)).line.1).append
        (.cons (by decide) (.cons (by decide) (ih hd' _)))
    · rw [hchars]
      exact .of_line fun c hc => isLineChar_of_isAlphanumeric (hs c hc)

/-- **The tokens of a record in the flow form.** -/
theorem json_finishes {depth : Nat} {members : List (String × Document)}
    (hd : Writable (isKept ·) (depth + 1) (.record (m :: members))) (hdepth : depth + 2 ≤ nestingLimit) :
    Finishes { cursor := ⟨jsonChars 0 (.record (m :: members)) ++ ['\n'], {}⟩ }
      (jsonKinds (.record (m :: members)) ++ [TokenKind.streamEnd]) := by
  let r : Standing := { cursor := ⟨jsonChars 0 (.record (m :: members)) ++ ['\n'], {}⟩ }
  have h : r.AtBracket {} [] := {
    levels := rfl
    optional := .of_key_eq_none rfl
    indent := rfl
    outer := rfl
    freeKey := fun _ => .inr (show (-1 : Int) ≠ 0 by decide) }
  have hnest : r.levels.length + (depth + 1) ≤ nestingLimit := by
    show 1 + (depth + 1) ≤ _
    omega
  have hline : jsonChars 0 (.record (m :: members)) ++ ['\n'] =
      jsonChars 0 (.record (m :: members)) ++ (lineGap true 0 ++ []) := rfl
  obtain ⟨r', hrun, hrest, hlevels, hkinds, hindent, houter⟩ :=
    passes_record (readsFlow depth) h hnest begins_nil hd hline
  have hoptional : Optional r.noted := optional_noted h.optional h.freeKey
  obtain ⟨w, hnoted⟩ : ∃ w : Level, r.noted = [w] := ⟨_, rfl⟩
  have hdone : r'.Done 0 := {
    closed := .inr (.inr houter)
    rest := hrest
    level := ⟨w, hlevels.trans hnoted, fun k hk => hoptional k (by
      rw [hnoted]
      exact mem_filterMap.2 ⟨w, mem_cons_self, hk⟩)⟩
    blocks := ⟨[], rfl, by rw [hindent, houter]; rfl, by simp⟩ }
  have hfinishes := hrun.finishes (.done hdone)
  have hall : r'.kinds ++ replicate 0 .blockEnd ++ [.streamEnd] =
      jsonKinds (.record (m :: members)) ++ [.streamEnd] := by
    rw [hkinds]
    simp [r]
  rwa [hall] at hfinishes

end ServiceCompiler.Document
