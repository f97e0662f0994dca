import ServiceCompiler.Proofs.Document.Json
import ServiceCompiler.Proofs.Document.Scalar
import ServiceCompiler.Proofs.Document.Yaml

namespace ServiceCompiler.Document

open List

/-!
# From tokens to nodes

The tokens of a written document are put together to a node that shows the document again.

* `Node.Shows` — what a node shows of a document, whichever line it stands on.
* `Compose.Takes` — a reader of nodes takes just the given tokens.
* `takes_yaml`, `takes_json` — the tokens of a document in either form give a node that shows it.
* `exists_tree_yaml`, `exists_tree_json` — the trees of whole texts.
-/

/-! ### What nodes show -/

mutual

/-- The node shows the document: scalars have a tag that makes them what they are.  Of a missing list,
    `listed` tells whether it is shown as an empty one or as nothing. -/
def Node.Shows (listed : Bool) : Document → Node → Prop
  | .flag b, n => ∃ line, n = .scalar line boolTag (if b then "true" else "false")
  | .number k, n => ∃ line, n = .scalar line intTag (Text.decimalInt k)
  | .text s, n => ∃ line tag, n = .scalar line tag s ∧ (tag = strTag ∨ tag = mergeTag)
  | .missingList, n =>
    ∃ line, n = if listed then .sequence line seqTag [] else .scalar line nullTag "null"
  | .list items, n => ∃ line nodes, n = .sequence line seqTag nodes ∧ ShowsItems listed items nodes
  | .record members, n => ∃ line entries, n = .mapping line mapTag entries ∧ ShowsMembers listed members entries

def Node.ShowsItems (listed : Bool) : List Document → List Node → Prop
  | [], nodes => nodes = []
  | d :: items, nodes => ∃ n rest, nodes = n :: rest ∧ n.Shows listed d ∧ ShowsItems listed items rest

def Node.ShowsMembers (listed : Bool) : List (String × Document) → List (Node × Node) → Prop
  | [], entries => entries = []
  | m :: members, entries =>
    ∃ line n rest, entries = (.scalar line strTag m.1, n) :: rest ∧ n.Shows listed m.2 ∧
      ShowsMembers listed members rest

end

/-! ### Taking tokens -/

/-- The composer with another lexer. -/
def Composer.on (s : Composer) (l : Lexer) : Composer := { s with lexer := l }

@[simp] theorem Composer.on_lexer (s : Composer) (l : Lexer) : (s.on l).lexer = l := rfl

/-- The composer with the tag handles of a document without directives. -/
def Composer.undirected (s : Composer) : Composer := { s with handles := Compose.defaultHandles }

@[simp] theorem Composer.on_on (s : Composer) (l l' : Lexer) : (s.on l).on l' = s.on l' := rfl

namespace Compose

variable {α β : Type} {s : Composer} {t : Token} {k : TokenKind} {ks ks' : List TokenKind} {m : Compose α}
  {f : α → Compose β} {P : β → Prop} {Q : α → Prop} (level : Nat) (indentless : Bool)

/-- The composer has a token at hand, and others follow. -/
structure At (s : Composer) (t : Token) (ks : List TokenKind) : Prop where
  peek : peek s = some (t, s)
  delivers : s.lexer.Delivers (t.kind :: ks)
  handOut : s.lexer.handOut.Delivers ks

theorem exists_at (h : s.lexer.Delivers (k :: ks)) :
    ∃ l t, peek s = some (t, s.on l) ∧ At (s.on l) t ks ∧ t.kind = k := by
  obtain ⟨l, t, hfilled, hagain, hhead, hkind, hnext⟩ := h
  refine ⟨l, t, ?_, ⟨?_, ⟨l, t, hagain, hagain, hhead, rfl, hnext⟩, hnext⟩, hkind⟩
  · simp only [peek, hfilled, hhead, Option.bind_eq_bind, Option.bind_some]
    rfl
  · simp only [peek, Composer.on_lexer, hagain, hhead, Option.bind_eq_bind, Option.bind_some]
    rfl

theorem run_bind (m : Compose α) (f : α → Compose β) (s : Composer) :
    (m >>= f) s = (m s).bind fun p => f p.1 p.2 := rfl

/-- **The reader takes the tokens**, whatever follows them, and gives a value with a property. -/
def Takes (m : Compose α) (ks : List TokenKind) (P : α → Prop) : Prop :=
  ∀ (s : Composer) (rest : List TokenKind), s.lexer.Delivers (ks ++ rest) →
    ∃ a l, m s = some (a, s.on l) ∧ P a ∧ l.Delivers rest

/-- With a token at hand, the reader takes it and further ones. -/
def TakesAt (t : Token) (m : Compose α) (ks : List TokenKind) (P : α → Prop) : Prop :=
  ∀ (s : Composer) (rest : List TokenKind), At s t (ks ++ rest) →
    ∃ a l, m s = some (a, s.on l) ∧ P a ∧ l.Delivers rest

/-! One rule for each way of putting readers together: looking at a token, leaving it out, and reading on. -/

theorem takes_pure {b : β} (h : P b) : Takes (pure b) [] P := fun s _ hs => ⟨b, s.lexer, rfl, h, hs⟩

theorem Takes.bind (h : Takes m ks Q) (hf : ∀ a, Q a → Takes (f a) ks' P) : Takes (m >>= f) (ks ++ ks') P := by
  intro s rest hs
  rw [append_assoc] at hs
  obtain ⟨a, l, hm, ha, hl⟩ := h s _ hs
  obtain ⟨b, l', hb, hP, hl'⟩ := hf a ha (s.on l) rest hl
  exact ⟨b, l', by rw [run_bind, hm]; exact hb, hP, hl'⟩

theorem Takes.map (h : Takes m ks Q) {f : α → β} (hf : ∀ a, Q a → P (f a)) : Takes (f <$> m) ks P := by
  have hbind := h.bind (f := fun a => pure (f a)) fun a ha => takes_pure (hf a ha)
  rwa [append_nil] at hbind

theorem Takes.mono {P' : β → Prop} {m : Compose β} (h : Takes m ks P) (hP : ∀ b, P b → P' b) : Takes m ks P' := by
  intro s rest hs
  obtain ⟨b, l, hm, hb, hl⟩ := h s rest hs
  exact ⟨b, l, hm, hP b hb, hl⟩

theorem takes_peek {f : Token → Compose β} (h : ∀ t, t.kind = k → TakesAt t (f t) ks P) :
    Takes (peek >>= f) (k :: ks) P := by
  intro s rest hs
  obtain ⟨l, t, hpeek, hat, hk⟩ := exists_at hs
  obtain ⟨b, l', hb, hP, hl'⟩ := h t hk (s.on l) rest hat
  exact ⟨b, l', by rw [run_bind, hpeek]; exact hb, hP, hl'⟩

theorem Takes.at (h : Takes m (k :: ks) Q) (hk : t.kind = k) : TakesAt t m ks Q := fun s rest hs =>
  h s rest (hk ▸ hs.delivers)

theorem takes_peekKind {f : TokenKind → Compose β} (h : ∀ t, t.kind = k → TakesAt t (f k) ks P) :
    Takes (peekKind >>= f) (k :: ks) P := by
  simp only [peekKind, bind_assoc, pure_bind]
  exact takes_peek fun t ht => ht ▸ h t ht

theorem TakesAt.peek {f : Token → Compose β} (h : TakesAt t (f t) ks P) : TakesAt t (peek >>= f) ks P := by
  intro s rest hs
  rw [run_bind, hs.peek]
  exact h s rest hs

theorem TakesAt.peekKind {f : TokenKind → Compose β} (hk : t.kind = k) (h : TakesAt t (f k) ks P) :
    TakesAt t (peekKind >>= f) ks P := by
  simp only [Compose.peekKind, bind_assoc, pure_bind]
  exact TakesAt.peek (hk ▸ h)

theorem takesAt_skip {f : Unit → Compose β} (h : Takes (f ()) ks P) : TakesAt t (skip >>= f) ks P :=
  fun s rest hs => h (s.on s.lexer.handOut) rest hs.handOut

/-- Kinds of tokens that begin a node without properties. -/
def beginsNode : TokenKind → Bool
  | .scalar .. => true
  | .flowSequenceStart => true
  | .flowMappingStart => true
  | .blockSequenceStart => true
  | .blockMappingStart => true
  | _ => false

theorem beginsNode_cases (h : beginsNode k = true) :
    (∃ isPlain value, k = .scalar isPlain value) ∨ k = .flowSequenceStart ∨ k = .flowMappingStart ∨
      k = .blockSequenceStart ∨ k = .blockMappingStart := by
  cases k <;> first | exact Bool.noConfusion h | simp

/-- In front of a node, no entry or part is empty. -/
theorem ends_of_beginsNode (h : beginsNode k = true) :
    endsEntry false k = false ∧ endsPart k = false ∧ endsFlowPart k = false ∧ k ≠ .key ∧ k ≠ .flowEntry ∧
      k ≠ .flowSequenceEnd ∧ k ≠ .flowMappingEnd := by
  rcases beginsNode_cases h with ⟨isPlain, value, rfl⟩ | rfl | rfl | rfl | rfl
  · exact ⟨rfl, rfl, rfl, nofun, nofun, nofun, nofun⟩
  all_goals decide

/-- What is read from the first token of a node without properties on. -/
def nodeFrom (fuel : Nat) (block : Bool) (t : Token) : Compose Node :=
  match t.kind with
  | .scalar isPlain value => do
    skip
    return .scalar t.line (scalarTag isPlain value) value
  | .flowSequenceStart => do
    skip
    return .sequence t.line seqTag (← flowItems fuel true)
  | .flowMappingStart => do
    skip
    return .mapping t.line mapTag (← flowEntries fuel true)
  | .blockSequenceStart =>
    if block then do
      skip
      return .sequence t.line seqTag (← blockItems fuel false)
    else fail
  | .blockMappingStart =>
    if block then do
      skip
      return .mapping t.line mapTag (← blockEntries fuel)
    else fail
  | _ => fail

/-- A node without properties is read from its first token on. -/
theorem node_eq (fuel : Nat) (block indentless : Bool) {l : Lexer} (hpeek : peek s = some (t, s.on l))
    (h : At (s.on l) t ks) (hbegins : beginsNode t.kind = true) :
    node (fuel + 1) block indentless s = nodeFrom fuel block t (s.on l) := by
  have hkind : peekKind (s.on l) = some (t.kind, s.on l) := by
    rw [peekKind, run_bind, h.peek]
    rfl
  have hpure : ∀ {α : Type} (a : α) (s : Composer), (pure a : Compose α) s = some (a, s) := fun _ _ => rfl
  have hprops : properties (s.on l) = some ({}, s.on l) := by
    rcases beginsNode_cases hbegins with ⟨isPlain, value, hk⟩ | hk | hk | hk | hk <;> rw [hk] at hkind <;>
      simp [properties, anchorName, tagParts, run_bind, hpure, hkind]
  rw [node, run_bind, hpeek, nodeFrom]
  rcases beginsNode_cases hbegins with ⟨isPlain, value, hk⟩ | hk | hk | hk | hk <;>
    simp only [run_bind, hpure, Option.bind_some, hprops, h.peek, hk] <;>
      cases block <;> cases indentless <;> rfl

/-- A node from its first token on. -/
theorem takes_node {fuel : Nat} {block : Bool} (hbegins : beginsNode k = true) {P : Node → Prop}
    (h : ∀ t : Token, t.kind = k → TakesAt t (nodeFrom fuel block t) ks P) :
    Takes (node (fuel + 1) block indentless) (k :: ks) P := by
  intro s rest hs
  obtain ⟨l, t, hpeek, hat, hk⟩ := exists_at hs
  rw [node_eq fuel block indentless hpeek hat (hk ▸ hbegins)]
  exact h t hk (s.on l) rest hat

theorem takes_scalar (fuel : Nat) (block indentless isPlain : Bool) (value : String) :
    Takes (node (fuel + 1) block indentless) [.scalar isPlain value]
      fun n => ∃ line, n = .scalar line (scalarTag isPlain value) value := by
  refine takes_node indentless rfl fun t ht => ?_
  rw [nodeFrom, ht]
  exact takesAt_skip (takes_pure ⟨t.line, rfl⟩)

section Collections

variable {fuel : Nat} {items : List Node → Prop} {entries : List (Node × Node) → Prop}

theorem takes_flowSequence (block indentless : Bool) (h : Takes (flowItems fuel true) ks items) :
    Takes (node (fuel + 1) block indentless) (.flowSequenceStart :: ks)
      fun n => ∃ line nodes, n = .sequence line seqTag nodes ∧ items nodes := by
  refine takes_node indentless rfl fun t ht => ?_
  rw [nodeFrom, ht]
  exact takesAt_skip (h.map fun nodes hnodes => ⟨t.line, nodes, rfl, hnodes⟩)

theorem takes_flowMapping (block indentless : Bool) (h : Takes (flowEntries fuel true) ks entries) :
    Takes (node (fuel + 1) block indentless) (.flowMappingStart :: ks)
      fun n => ∃ line pairs, n = .mapping line mapTag pairs ∧ entries pairs := by
  refine takes_node indentless rfl fun t ht => ?_
  rw [nodeFrom, ht]
  exact takesAt_skip (h.map fun pairs hpairs => ⟨t.line, pairs, rfl, hpairs⟩)

theorem takes_blockSequence (h : Takes (blockItems fuel false) ks items) :
    Takes (node (fuel + 1) true indentless) (.blockSequenceStart :: ks)
      fun n => ∃ line nodes, n = .sequence line seqTag nodes ∧ items nodes := by
  refine takes_node indentless rfl fun t ht => ?_
  rw [nodeFrom, ht]
  exact takesAt_skip (h.map fun nodes hnodes => ⟨t.line, nodes, rfl, hnodes⟩)

theorem takes_blockMapping (h : Takes (blockEntries fuel) ks entries) :
    Takes (node (fuel + 1) true indentless) (.blockMappingStart :: ks)
      fun n => ∃ line pairs, n = .mapping line mapTag pairs ∧ entries pairs := by
  refine takes_node indentless rfl fun t ht => ?_
  rw [nodeFrom, ht]
  exact takesAt_skip (h.map fun pairs hpairs => ⟨t.line, pairs, rfl, hpairs⟩)

end Collections

/-! ### Items and entries -/

section Parts

variable {fuel : Nat} {item : Node → Prop} {items : List Node → Prop} {entries : List (Node × Node) → Prop}

theorem takes_blockItems_nil (fuel : Nat) : Takes (blockItems (fuel + 1) false) [.blockEnd] (· = []) := by
  rw [blockItems]
  refine takes_peek fun t ht => ?_
  simp only [ht]
  exact takesAt_skip (takes_pure rfl)

theorem takes_blockItems_cons (hbegins : beginsNode k = true)
    (hitem : Takes (node fuel true false) (k :: ks) item) (hitems : Takes (blockItems fuel false) ks' items) :
    Takes (blockItems (fuel + 1) false) (.blockEntry :: k :: ks ++ ks')
      fun nodes => ∃ n rest, nodes = n :: rest ∧ item n ∧ items rest := by
  rw [blockItems]
  refine takes_peek fun t ht => ?_
  simp only [ht]
  refine takesAt_skip (takes_peekKind fun t' ht' => ?_)
  simp only [(ends_of_beginsNode hbegins).1]
  exact ((hitem.bind fun n hn => hitems.map fun nodes hnodes => ⟨n, nodes, rfl, hn, hnodes⟩).at ht')

theorem takes_blockEntries_nil (fuel : Nat) : Takes (blockEntries (fuel + 1)) [.blockEnd] (· = []) := by
  rw [blockEntries]
  refine takes_peek fun t ht => ?_
  simp only [ht]
  exact takesAt_skip (takes_pure rfl)

/-- An entry of a block mapping, with a scalar as its key. -/
theorem takes_blockEntries_cons (isPlain : Bool) (name : String) (hbegins : beginsNode k = true)
    (hvalue : Takes (node (fuel + 1) true true) (k :: ks) item)
    (hentries : Takes (blockEntries (fuel + 1)) ks' entries) :
    Takes (blockEntries (fuel + 2)) (.key :: .scalar isPlain name :: .value :: k :: ks ++ ks')
      fun pairs => ∃ line n rest, pairs = (.scalar line (scalarTag isPlain name) name, n) :: rest ∧ item n ∧
        entries rest := by
  have hscalar : endsPart (.scalar isPlain name) = false := rfl
  rw [blockEntries]
  refine takes_peek fun t ht => ?_
  simp only [ht]
  refine takesAt_skip (takes_peekKind fun t₁ ht₁ => ?_)
  simp only [hscalar]
  refine ((takes_scalar fuel true true isPlain name).bind fun key hkey => takes_peek fun t₂ ht₂ => ?_).at ht₁
  obtain ⟨line, rfl⟩ := hkey
  simp only [ht₂, if_true]
  refine takesAt_skip (takes_peekKind fun t₃ ht₃ => ?_)
  simp only [(ends_of_beginsNode hbegins).2.1]
  exact (hvalue.bind fun n hn => hentries.map fun pairs hpairs => ⟨line, n, pairs, rfl, hn, hpairs⟩).at ht₃

theorem takes_flowItems_nil (fuel : Nat) (first : Bool) :
    Takes (flowItems (fuel + 1) first) [.flowSequenceEnd] (· = []) := by
  rw [flowItems]
  exact takes_peekKind fun t ht => takesAt_skip (takes_pure rfl)

theorem takes_flowEntries_nil (fuel : Nat) (first : Bool) :
    Takes (flowEntries (fuel + 1) first) [.flowMappingEnd] (· = []) := by
  rw [flowEntries]
  exact takes_peekKind fun t ht => takesAt_skip (takes_pure rfl)

/-- A part between brackets that is not the closing one, behind a comma if there was a part before. -/
theorem takes_comma {stop : TokenKind} {body : Token → Compose (List α)} {P : List α → Prop} (first : Bool)
    (hk : k ≠ stop) (hstop : TokenKind.flowEntry ≠ stop) (h : ∀ t, t.kind = k → TakesAt t (body t) ks P) :
    Takes (do
      if (← peekKind) = stop then
        skip
        return []
      if !first then
        if (← peekKind) = .flowEntry then skip else fail
      let token ← peek
      body token) ((if first then [] else [TokenKind.flowEntry]) ++ k :: ks) P := by
  cases first with
  | true =>
    refine takes_peekKind fun t ht => ?_
    simp only [hk, if_false]
    exact TakesAt.peek (h t ht)
  | false =>
    refine takes_peekKind fun t ht => ?_
    simp only [hstop, if_false]
    exact TakesAt.peekKind ht (takesAt_skip (takes_peek h))

/-- The first item of a flow sequence, behind a comma if there was one before. -/
theorem takes_flowItems_cons (first : Bool) (hbegins : beginsNode k = true)
    (hitem : Takes (node fuel false false) (k :: ks) item) (hitems : Takes (flowItems fuel false) ks' items) :
    Takes (flowItems (fuel + 1) first) ((if first then [] else [TokenKind.flowEntry]) ++ (k :: ks ++ ks'))
      fun nodes => ∃ n rest, nodes = n :: rest ∧ item n ∧ items rest := by
  obtain ⟨-, -, -, hkey, -, hend, -⟩ := ends_of_beginsNode hbegins
  rw [flowItems]
  refine takes_comma first hend nofun fun t ht => ?_
  simp only [ht, hend, hkey, if_false]
  exact (hitem.bind fun n hn => hitems.map fun nodes hnodes => ⟨n, nodes, rfl, hn, hnodes⟩).at ht

/-- The first entry of a flow mapping, with a scalar as its key. -/
theorem takes_flowEntries_cons (first isPlain : Bool) (name : String) (hbegins : beginsNode k = true)
    (hvalue : Takes (node (fuel + 1) false false) (k :: ks) item)
    (hentries : Takes (flowEntries (fuel + 1) false) ks' entries) :
    Takes (flowEntries (fuel + 2) first) ((if first then [] else [.flowEntry]) ++
        (.key :: .scalar isPlain name :: .value :: k :: ks ++ ks'))
      fun pairs => ∃ line n rest, pairs = (.scalar line (scalarTag isPlain name) name, n) :: rest ∧ item n ∧
        entries rest := by
  obtain ⟨-, -, -, -, hcomma, -, hend⟩ := ends_of_beginsNode hbegins
  have hscalar : endsFlowPart (.scalar isPlain name) = false := rfl
  rw [flowEntries]
  refine takes_comma first nofun nofun fun t ht => ?_
  simp only [ht]
  refine takesAt_skip (takes_peek fun t₁ ht₁ => ?_)
  simp only [ht₁, hscalar]
  refine ((takes_scalar fuel false false isPlain name).bind fun key hkey => takes_peek fun t₂ ht₂ => ?_).at ht₁
  obtain ⟨line, rfl⟩ := hkey
  simp only [ht₂, if_true]
  refine takesAt_skip (takes_peek fun t₃ ht₃ => ?_)
  simp only [ht₃, hcomma, hend]
  exact (hvalue.bind fun n hn => hentries.map fun pairs hpairs => ⟨line, n, pairs, rfl, hn, hpairs⟩).at ht₃

end Parts

/-! ### Documents -/

open Node (Shows ShowsItems ShowsMembers)

theorem beginsNode_yaml (d : Document) : ∃ k ks, yamlKinds d = k :: ks ∧ beginsNode k = true := by
  cases d with
  | list items =>
    cases items with
    | nil => exact ⟨_, _, by rw [yamlKinds], rfl⟩
    | cons d items => exact ⟨_, _, by rw [yamlKinds, cons_append], rfl⟩
  | record members =>
    cases members with
    | nil => exact ⟨_, _, by rw [yamlKinds], rfl⟩
    | cons m members => exact ⟨_, _, by rw [yamlKinds, cons_append], rfl⟩
  | _ => exact ⟨_, _, by rw [yamlKinds], rfl⟩

theorem beginsNode_json (d : Document) : ∃ k ks, jsonKinds d = k :: ks ∧ beginsNode k = true := by
  cases d with
  | list items => exact ⟨_, _, by rw [jsonKinds, cons_append], rfl⟩
  | record members => exact ⟨_, _, by rw [jsonKinds, cons_append], rfl⟩
  | _ => exact ⟨_, _, by rw [jsonKinds], rfl⟩

/-! The fuel of the composer is counted by the characters of the text, of which every node and every part has
some. -/

section Lengths

variable (step indent : Nat)

theorem length_blockChars_le (d : Document) :
    (blockChars step indent d).length ≤ (valueChars step indent d).length := by
  rw [valueChars]
  cases h : inline? step indent d with
  | none => exact Nat.le_refl _
  | some cs =>
    have hblock : blockChars step indent d = [] := by
      cases d with
      | list items =>
        cases items with
        | nil => rw [blockChars, itemChars]
        | cons d items => simp [inline?] at h
      | record members =>
        cases members with
        | nil => rw [blockChars, memberChars]
        | cons m members => simp [inline?] at h
      | _ => rw [blockChars]
    simp [hblock]

theorem length_itemChars_cons (d : Document) (items : List Document) :
    (blockChars step (indent + 2) d).length + (itemChars step indent items).length + 2 ≤
      (itemChars step indent (d :: items)).length := by
  have hvalue := length_blockChars_le step (indent + 2) d
  rw [itemChars_cons]
  cases items with
  | nil =>
    simp [itemChars]
    omega
  | cons e items =>
    simp
    omega

theorem length_memberChars_cons (m : String × Document) (members : List (String × Document)) :
    (blockChars step (innerIndent step indent) m.2).length + (memberChars step indent members).length + 2 ≤
      (memberChars step indent (m :: members)).length := by
  have hvalue := length_blockChars_le step (innerIndent step indent) m.2
  have hgap : 1 ≤ (lineGap (memberGap step indent m.2).1 (memberGap step indent m.2).2).length := by
    rw [memberGap]
    split <;> simp [lineGap]
  rw [memberChars_cons, memberOwn]
  cases members with
  | nil =>
    simp [memberChars]
    omega
  | cons m members =>
    simp
    omega

end Lengths

theorem length_jsonParts (left right : Char) (parts : List (List Char)) :
    (parts.flatMap (',' :: ·)).length + 2 ≤ (jsonParts level left right parts).length := by
  have hjoined : ∀ (sep p : List Char) (ps : List (List Char)), sep ≠ [] →
      ((p :: ps).flatMap (',' :: ·)).length ≤ (sep.intercalate (p :: ps)).length + 1 := by
    intro sep p ps hsep
    induction ps generalizing p with
    | nil => simp
    | cons q ps ih =>
      have hlength := length_pos_of_ne_nil hsep
      have hq := ih q
      rw [intercalate_cons_cons, flatMap_cons]
      simp only [length_append, length_cons]
      omega
  cases parts with
  | nil => simp [jsonParts]
  | cons p ps =>
    have h := hjoined (',' :: jsonBreak (level + 1)) p ps (by simp)
    rw [jsonParts, if_neg (by simp), jsonBreak, jsonBreak]
    simp only [cons_append, length_cons, length_append, length_nil]
    simp only [jsonBreak] at h
    omega

section Documents

variable {p : Char → Prop} {depth fuel : Nat} {d : Document} {listed : Bool}

/-- A scalar that shows a document. -/
theorem takes_shown {isPlain : Bool} {value : String} (hfuel : 1 ≤ fuel) (block indentless : Bool)
    (h : ∀ line, Shows listed d (.scalar line (scalarTag isPlain value) value)) :
    Takes (node fuel block indentless) [.scalar isPlain value] (Shows listed d) := by
  obtain ⟨fuel, rfl⟩ : ∃ f, fuel = f + 1 := ⟨fuel - 1, by omega⟩
  refine (takes_scalar fuel block indentless isPlain value).mono ?_
  rintro n ⟨line, rfl⟩
  exact h line

theorem shows_flag (b : Bool) (line : Nat) : Shows listed (.flag b)
    (.scalar line (scalarTag true (if b then "true" else "false")) (if b then "true" else "false")) := by
  cases b <;> exact ⟨line, rfl⟩

theorem shows_number {n : Int} (hd : Writable p (depth + 1) (.number n)) (line : Nat) :
    Shows listed (.number n) (.scalar line (scalarTag true (Text.decimalInt n)) (Text.decimalInt n)) := by
  obtain ⟨m, rfl⟩ := Int.eq_ofNat_of_zero_le hd.1
  have hm : m < Number.signedLimit := Int.ofNat_lt.1 hd.2
  have htag : scalarTag true (Text.decimalInt m) = intTag := scalarTag_decimal hm
  rw [htag]
  exact ⟨line, rfl⟩

theorem takes_yamlItems (step indent : Nat) {items : List Document} (h : ∀ d ∈ items, ∀ fuel,
      4 * (blockChars step (indent + 2) d).length + 2 ≤ fuel →
      ∀ indentless, Takes (node fuel true indentless) (yamlKinds d) (Shows true d))
    (hfuel : 4 * (itemChars step indent items).length + 1 ≤ fuel) :
    Takes (blockItems fuel false) (yamlItemKinds items ++ [.blockEnd]) (ShowsItems true items) := by
  induction items generalizing fuel with
  | nil =>
    obtain ⟨fuel, rfl⟩ : ∃ f, fuel = f + 1 := ⟨fuel - 1, by omega⟩
    exact (takes_blockItems_nil fuel).mono fun nodes hnodes => by rwa [ShowsItems]
  | cons d items ih =>
    obtain ⟨hd, hitems⟩ := forall_mem_cons.1 h
    obtain ⟨k, ks, hkinds, hbegins⟩ := beginsNode_yaml d
    have hlength := length_itemChars_cons step indent d items
    obtain ⟨fuel, rfl⟩ : ∃ f, fuel = f + 1 := ⟨fuel - 1, by omega⟩
    have hnode := hd fuel (by omega) false
    rw [hkinds] at hnode
    have htakes := takes_blockItems_cons hbegins hnode (ih hitems (by omega))
    rw [yamlItemKinds, hkinds, append_assoc]
    exact htakes.mono fun nodes hnodes => by rwa [ShowsItems]

/-- The members of a record in the block form. -/
theorem takes_yamlMembers (step indent : Nat) {members : List (String × Document)}
    (h : ∀ m ∈ members, isKey m.1 = true ∧ ∀ fuel,
      4 * (blockChars step (innerIndent step indent) m.2).length + 2 ≤ fuel →
      ∀ indentless, Takes (node fuel true indentless) (yamlKinds m.2) (Shows true m.2))
    (hfuel : 4 * (memberChars step indent members).length + 1 ≤ fuel) :
    Takes (blockEntries fuel) (yamlMemberKinds members ++ [.blockEnd]) (ShowsMembers true members) := by
  induction members generalizing fuel with
  | nil =>
    obtain ⟨fuel, rfl⟩ : ∃ f, fuel = f + 1 := ⟨fuel - 1, by omega⟩
    exact (takes_blockEntries_nil fuel).mono fun pairs hpairs => by rwa [ShowsMembers]
  | cons m members ih =>
    obtain ⟨⟨hkey, hd⟩, hmembers⟩ := forall_mem_cons.1 h
    obtain ⟨k, ks, hkinds, hbegins⟩ := beginsNode_yaml m.2
    have hlength := length_memberChars_cons step indent m members
    obtain ⟨fuel, rfl⟩ : ∃ f, fuel = f + 2 := ⟨fuel - 2, by omega⟩
    have hnode := hd (fuel + 1) (by omega) true
    rw [hkinds] at hnode
    have htakes := takes_blockEntries_cons true m.1 hbegins hnode (ih hmembers (by omega))
    rw [yamlMemberKinds, hkinds, append_assoc]
    refine htakes.mono fun pairs hpairs => ?_
    rwa [ShowsMembers, ← scalarTag_key hkey true]

/-- **The block form is put together again.** -/
theorem takes_yaml (step indent : Nat) (hd : Writable p depth d)
    (hfuel : 4 * (blockChars step indent d).length + 2 ≤ fuel) (indentless : Bool) :
    Takes (node fuel true indentless) (yamlKinds d) (Shows true d) := by
  induction depth generalizing d fuel indent indentless with
  | zero => exact absurd hd not_false
  | succ depth ih =>
    obtain ⟨fuel, rfl⟩ : ∃ f, fuel = f + 2 := ⟨fuel - 2, by omega⟩
    cases d with
    | flag b =>
      rw [yamlKinds]
      exact takes_shown (by omega) true indentless (shows_flag b)
    | number k =>
      rw [yamlKinds]
      exact takes_shown (by omega) true indentless (shows_number hd)
    | text s =>
      rw [yamlKinds]
      exact takes_shown (by omega) true indentless fun line => ⟨line, _, rfl, scalarTag_text s⟩
    | missingList =>
      rw [yamlKinds]
      refine (takes_flowSequence true indentless (takes_flowItems_nil fuel true)).mono ?_
      rintro n ⟨line, nodes, rfl, rfl⟩
      exact ⟨line, rfl⟩
    | list items =>
      cases items with
      | nil =>
        rw [yamlKinds]
        refine (takes_flowSequence true indentless (takes_flowItems_nil fuel true)).mono ?_
        rintro n ⟨line, nodes, rfl, rfl⟩
        exact ⟨line, [], rfl, by rw [ShowsItems]⟩
      | cons d items =>
        rw [yamlKinds]
        rw [blockChars] at hfuel
        exact takes_blockSequence indentless (takes_yamlItems step indent
          (fun e he fuel hfuel indentless => ih _ (hd e he).2 hfuel indentless) (by omega))
    | record members =>
      cases members with
      | nil =>
        rw [yamlKinds]
        refine (takes_flowMapping true indentless (takes_flowEntries_nil fuel true)).mono ?_
        rintro n ⟨line, pairs, rfl, rfl⟩
        exact ⟨line, [], rfl, by rw [ShowsMembers]⟩
      | cons m members =>
        rw [yamlKinds]
        rw [blockChars] at hfuel
        exact takes_blockMapping indentless (takes_yamlMembers step indent
          (fun e he => ⟨(hd e he).1, fun fuel hfuel indentless => ih _ (hd e he).2 hfuel indentless⟩) (by omega))

/-- The items of a list in the flow form. -/
theorem takes_jsonItems {items : List Document} (first : Bool) (h : ∀ d ∈ items, ∀ fuel,
      4 * (jsonChars level d).length + 1 ≤ fuel → Takes (node fuel false false) (jsonKinds d) (Shows false d))
    (hfuel : 4 * ((jsonItems level items).flatMap (',' :: ·)).length + 1 ≤ fuel) :
    Takes (flowItems fuel first) (jsonItemKinds first items ++ [.flowSequenceEnd]) (ShowsItems false items) := by
  induction items generalizing fuel first with
  | nil =>
    obtain ⟨fuel, rfl⟩ : ∃ f, fuel = f + 1 := ⟨fuel - 1, by omega⟩
    rw [jsonItemKinds]
    exact (takes_flowItems_nil fuel first).mono fun nodes hnodes => by rwa [ShowsItems]
  | cons d items ih =>
    obtain ⟨hd, hitems⟩ := forall_mem_cons.1 h
    obtain ⟨k, ks, hkinds, hbegins⟩ := beginsNode_json d
    rw [jsonItems, flatMap_cons, length_append, length_cons] at hfuel
    obtain ⟨fuel, rfl⟩ : ∃ f, fuel = f + 1 := ⟨fuel - 1, by omega⟩
    have hnode := hd fuel (by omega)
    rw [hkinds] at hnode
    have htakes := takes_flowItems_cons first hbegins hnode (ih false hitems (by omega))
    rw [jsonItemKinds, hkinds, append_assoc, append_assoc]
    exact htakes.mono fun nodes hnodes => by rwa [ShowsItems]

/-- The members of a record in the flow form. -/
theorem takes_jsonMembers {members : List (String × Document)} (first : Bool)
    (h : ∀ m ∈ members, isKey m.1 = true ∧ ∀ fuel, 4 * (jsonChars level m.2).length + 1 ≤ fuel →
      Takes (node fuel false false) (jsonKinds m.2) (Shows false m.2))
    (hfuel : 4 * ((jsonMembers level members).flatMap (',' :: ·)).length + 1 ≤ fuel) :
    Takes (flowEntries fuel first) (jsonMemberKinds first members ++ [.flowMappingEnd])
      (ShowsMembers false members) := by
  induction members generalizing fuel first with
  | nil =>
    obtain ⟨fuel, rfl⟩ : ∃ f, fuel = f + 1 := ⟨fuel - 1, by omega⟩
    rw [jsonMemberKinds]
    exact (takes_flowEntries_nil fuel first).mono fun pairs hpairs => by rwa [ShowsMembers]
  | cons m members ih =>
    obtain ⟨⟨hkey, hd⟩, hmembers⟩ := forall_mem_cons.1 h
    obtain ⟨k, ks, hkinds, hbegins⟩ := beginsNode_json m.2
    rw [jsonMembers, flatMap_cons, length_append, length_cons, length_append] at hfuel
    obtain ⟨fuel, rfl⟩ : ∃ f, fuel = f + 2 := ⟨fuel - 2, by omega⟩
    have hnode := hd (fuel + 1) (by omega)
    rw [hkinds] at hnode
    have htakes := takes_flowEntries_cons first false m.1 hbegins hnode (ih false hmembers (by omega))
    rw [jsonMemberKinds, hkinds]
    simp only [append_assoc, cons_append, nil_append] at htakes ⊢
    refine htakes.mono fun pairs hpairs => ?_
    rwa [ShowsMembers, ← scalarTag_key hkey false]

/-- **The flow form is put together again.** -/
theorem takes_json (hd : Writable p depth d) (hfuel : 4 * (jsonChars level d).length + 1 ≤ fuel) (block : Bool) :
    Takes (node fuel block false) (jsonKinds d) (Shows false d) := by
  induction depth generalizing d fuel level block with
  | zero => exact absurd hd not_false
  | succ depth ih =>
    obtain ⟨fuel, rfl⟩ : ∃ f, fuel = f + 1 := ⟨fuel - 1, by omega⟩
    cases d with
    | flag b =>
      rw [jsonKinds]
      exact takes_shown (by omega) block false (shows_flag b)
    | number k =>
      rw [jsonKinds]
      exact takes_shown (by omega) block false (shows_number hd)
    | text s =>
      rw [jsonKinds]
      exact takes_shown (by omega) block false fun line => ⟨line, _, rfl, .inl rfl⟩
    | missingList =>
      rw [jsonKinds]
      exact takes_shown (by omega) block false fun line => ⟨line, rfl⟩
    | list items =>
      rw [jsonKinds]
      have hparts := length_jsonParts level '[' ']' (jsonItems (level + 1) items)
      rw [jsonChars] at hfuel
      exact takes_flowSequence block false (takes_jsonItems (level + 1) true
        (fun e he fuel hfuel => ih _ (hd e he).2 hfuel false) (by omega))
    | record members =>
      rw [jsonKinds]
      have hparts := length_jsonParts level '\x7b' '\x7d' (jsonMembers (level + 1) members)
      rw [jsonChars] at hfuel
      exact takes_flowMapping block false (takes_jsonMembers (level + 1) true
        (fun e he => ⟨(hd e he).1, fun fuel hfuel => ih _ (hd e he).2 hfuel false⟩) (by omega))

end Documents

/-! ### Whole texts -/

/-- A document of one node, behind which the text ends. -/
theorem exists_document {fuel : Nat} {P : Node → Prop} (hbegins : beginsNode k = true)
    (h : Takes (node fuel true false) (k :: ks) P) (hs : s.lexer.Delivers (k :: ks ++ [.streamEnd])) :
    ∃ n l, document fuel s = some (some n, s.undirected.on l) ∧ P n := by
  obtain ⟨l, t, hpeek, hat, rfl⟩ := exists_at hs
  have hkind : peekKind s = some (t.kind, s.on l) := by
    rw [peekKind, run_bind, hpeek]
    rfl
  have hdelivers : (s.undirected.on l).lexer.Delivers (t.kind :: ks ++ [.streamEnd]) := hat.delivers
  obtain ⟨n, l₁, hnode, hn, hl₁⟩ := h _ _ hdelivers
  obtain ⟨l₂, t₂, hpeek₂, -, -⟩ := exists_at (s := s.undirected.on l₁) hl₁
  have hends : t.kind ≠ .streamEnd ∧ t.kind ≠ .documentEnd ∧ endsDocument t.kind = false := by
    rcases beginsNode_cases hbegins with ⟨isPlain, value, hk⟩ | hk | hk | hk | hk <;> rw [hk] <;>
      exact ⟨nofun, nofun, rfl⟩
  obtain ⟨hstream, hdocument, hdirected⟩ := hends
  have hmodify : (modify fun s => { s with handles := defaultHandles } : Compose Unit) (s.on l) =
      some ((), s.undirected.on l) := rfl
  have hmap : ∀ {α β : Type} (f : α → β) (m : Compose α) (s : Composer),
      (f <$> m) s = (m s).bind fun p => some (f p.1, p.2) := fun _ _ _ => rfl
  have hdiscard : (discard peek : Compose Unit) (s.undirected.on l₁) = some ((), s.undirected.on l₂) := by
    show (peek (s.undirected.on l₁)).bind (fun p => some ((), p.2)) = _
    rw [hpeek₂]
    rfl
  refine ⟨n, l₂, ?_, hn⟩
  rw [Composer.on_on] at hnode
  simp [document, run_bind, hmap, hkind, hstream, hdocument, hdirected, hmodify, hnode, hdiscard]

end Compose

section Trees

variable {depth : Nat} {m : String × Document} {members : List (String × Document)}

/-- The tree of a text whose tokens are those of one node. -/
theorem exists_tree {cs : List Char} {k : TokenKind} {ks : List TokenKind} {P : Node → Prop}
    (hbegins : Compose.beginsNode k = true) (h : (Lexer.ofText cs).Delivers (k :: ks ++ [.streamEnd]))
    (htakes : (Compose.node (8 * cs.length + 16) true false).Takes (k :: ks) P) :
    ∃ root, P root ∧ Tree.ofText? (String.ofList cs) =
      some { root := some root, anchored := [], size := cs.length + 1 } := by
  obtain ⟨root, l, hdocument, hroot⟩ := Compose.exists_document (s := { lexer := .ofText cs }) hbegins htakes h
  refine ⟨root, hroot, ?_⟩
  rw [Tree.ofText?, String.toList_ofList]
  show ((Compose.document (8 * cs.length + 16)) { lexer := .ofText cs }).bind _ = _
  rw [hdocument]
  rfl

/-- **The tree of a record in the block form.** -/
theorem exists_tree_yaml (step : Nat) (hstep : 0 < step)
    (hd : Writable (isPrintable ·) (depth + 1) (.record (m :: members))) (hdepth : depth + 1 < Lexer.nestingLimit) :
    ∃ root size, Node.Shows true (.record (m :: members)) root ∧
      Tree.ofText? ((Document.record (m :: members)).toYaml step) =
        some { root := some root, anchored := [], size := size + 1 } := by
  have hbegins : Begins (valueChars step 0 (.record (m :: members)) ++ []) := begins_valueChars hd []
  rw [append_nil] at hbegins
  obtain ⟨k, ks, hkinds, hk⟩ := Compose.beginsNode_yaml (.record (m :: members))
  have hdelivers := Lexer.delivers_ofText (isWritten_blockChars hd 0) hbegins (yaml_finishes hstep hd hdepth)
  have htakes := Compose.takes_yaml step 0 hd
    (by omega : _ ≤ 8 * (blockChars step 0 (.record (m :: members))).length + 16) false
  rw [hkinds] at hdelivers htakes
  obtain ⟨root, hroot, htree⟩ := exists_tree hk hdelivers htakes
  exact ⟨root, _, hroot, htree⟩

/-- **The tree of a record in the flow form.** -/
theorem exists_tree_json (hd : Writable (isKept ·) (depth + 1) (.record (m :: members)))
    (hdepth : depth + 2 ≤ Lexer.nestingLimit) :
    ∃ root size, Node.Shows false (.record (m :: members)) root ∧
      Tree.ofText? ((Document.record (m :: members)).toJson ++ "\n") =
        some { root := some root, anchored := [], size := size + 1 } := by
  have hwritten := (isWritten_jsonChars hd 0).append (IsWritten.cons (c := '\n') (by decide) isWritten_nil)
  have hbegins := Standing.begins_jsonChars hd 0 ['\n']
  obtain ⟨k, ks, hkinds, hk⟩ := Compose.beginsNode_json (.record (m :: members))
  have hdelivers := Lexer.delivers_ofText hwritten hbegins (json_finishes hd hdepth)
  have htakes := Compose.takes_json 0 hd
    (by simp; omega : _ ≤ 8 * (jsonChars 0 (.record (m :: members)) ++ ['\n']).length + 16) true
  rw [hkinds] at hdelivers htakes
  obtain ⟨root, hroot, htree⟩ := exists_tree hk hdelivers htakes
  rw [String.ofList_append] at htree
  exact ⟨root, _, hroot, htree⟩

end Trees

end ServiceCompiler.Document
