import ServiceCompiler.Document.Decode
import ServiceCompiler.Proofs.Document.Node

namespace ServiceCompiler.Document

open List

/-!
# From nodes to values

What the decoders give for nodes that show a document.

* `Gives` — a decoder gives a value and finds no fault.
* `gives_text`, `gives_number`, `gives_flag`, `gives_list` — plain values and lists.
* `Fills` — the members of a document turn one record into another, and `gives_record` the decoder of it.
-/

variable {ms : List (String × Document)} {n : Node}

/-- Outside of aliases, with room for a record. -/
structure Anchors.Direct (anchors : Anchors) : Prop where
  isAliased : anchors.isAliased = false
  depth : 0 < anchors.depth

namespace Decode

open Node (Shows ShowsItems ShowsMembers)

variable {α β : Type} {a : α} {b : β} {m : Decode α} {f : α → Decode β} {listed : Bool}
  {entries : List (Node × Node)} (type : String)

/-! ### Decoders without faults -/

/-- The decoder gives the value and notes no error, as long as no aliases were met. -/
def Gives (m : Decode α) (a : α) : Prop :=
  ∀ (anchors : Anchors) (t : Tally), anchors.Direct → t.aliasSteps = 0 →
    ∃ t', m anchors t = .ok (a, t') ∧ t'.errors = t.errors ∧ t'.aliasSteps = 0

theorem run_bind (m : Decode α) (f : α → Decode β) (anchors : Anchors) (t : Tally) :
    (m >>= f) anchors t = (m anchors t).bind fun p => f p.1 anchors p.2 := rfl

theorem gives_pure (a : α) : Gives (pure a) a := fun _ t _ ht => ⟨t, rfl, rfl, ht⟩

theorem Gives.bind (hm : Gives m a) (hf : Gives (f a) b) : Gives (m >>= f) b := by
  intro anchors t hanchors ht
  obtain ⟨t₁, hrun₁, herrors₁, hsteps₁⟩ := hm anchors t hanchors ht
  obtain ⟨t₂, hrun₂, herrors₂, hsteps₂⟩ := hf anchors t₁ hanchors hsteps₁
  refine ⟨t₂, ?_, herrors₂.trans herrors₁, hsteps₂⟩
  rw [run_bind, hrun₁]
  exact hrun₂

/-- The tally after one more node. -/
def counted (anchors : Anchors) (t : Tally) : Tally :=
  { t with steps := t.steps + 1, aliasSteps := t.aliasSteps + (if anchors.isAliased then 1 else 0) }

theorem step_eq (anchors : Anchors) (t : Tally) : step anchors t =
    (if (counted anchors t).isExcessive then fail else pure () : Decode Unit) anchors (counted anchors t) := rfl

/-- Steps outside of aliases are never too many. -/
theorem gives_step : Gives step () := by
  intro anchors t hanchors ht
  have hsteps : (counted anchors t).aliasSteps = 0 := by simp [counted, hanchors.isAliased, ht]
  have hfew : (counted anchors t).isExcessive = false := by simp [Tally.isExcessive, hsteps]
  refine ⟨counted anchors t, ?_, rfl, hsteps⟩
  rw [step_eq, hfew]
  rfl

def isAlias : Node → Bool
  | .alias .. => true
  | _ => false

theorem gives_enter {decode : Node → Decode α} (hn : isAlias n = false) (h : Gives (decode n) a) :
    Gives (enter n decode) a := by
  rcases n with ⟨⟩ | ⟨⟩ | ⟨⟩ | ⟨⟩
  · exact gives_step.bind h
  · exact gives_step.bind h
  · exact gives_step.bind h
  · exact Bool.noConfusion hn

theorem gives_meaning {tag value : String} {s : Scalar} (htag : tag ≠ binaryTag)
    (h : Scalar.resolve tag value = some s) : Gives (meaning tag value) (s, value) := by
  rw [meaning, if_neg htag, h]
  exact gives_pure _

/-! ### Plain values -/

theorem gives_text {s : String} (h : Shows listed (.text s) n) : Gives (text type n) (some s) := by
  obtain ⟨line, tag, rfl, htag⟩ := h
  have hresolve : tag ≠ binaryTag ∧ Scalar.resolve tag s = some (.text s) := by
    rcases htag with rfl | rfl
    · exact ⟨by decide, rfl⟩
    · exact ⟨by decide, rfl⟩
  exact gives_enter rfl ((gives_meaning hresolve.1 hresolve.2).bind (gives_pure _))

theorem gives_scalarOf {of? : Scalar → Option α} {a : α} {s : Scalar} {tag value : String} (htag : tag ≠ binaryTag)
    (hresolve : Scalar.resolve tag value = some s) (hnull : s ≠ .null) (h : of? s = some a) (line : Nat) :
    Gives (scalarOf type of? (.scalar line tag value)) (some a) := by
  refine gives_enter rfl ((gives_meaning htag hresolve).bind ?_)
  simp only [hnull, if_false, h]
  exact gives_pure _

theorem gives_number {k : Int} (hk : 0 ≤ k ∧ k < Number.signedLimit) (h : Shows listed (.number k) n) :
    Gives (number n) (some k) := by
  obtain ⟨line, rfl⟩ := h
  obtain ⟨j, rfl⟩ := Int.eq_ofNat_of_zero_le hk.1
  have hj : j < Number.signedLimit := Int.ofNat_lt.1 hk.2
  have hresolve : Scalar.resolve intTag (Text.decimalInt j) = some (.integer j) := by
    have hplain : Scalar.ofPlainWith (intTag == timeTag) (Text.decimalInt j) = .integer j := ofPlainWith_decimal _ hj
    rw [Scalar.resolve, if_pos (by decide)]
    simp only [hplain]
    rfl
  exact gives_scalarOf _ (by decide) hresolve nofun (by rw [numberOf?, if_pos hk.2]) line

theorem gives_flag {b : Bool} (h : Shows listed (.flag b) n) : Gives (flag n) (some b) := by
  obtain ⟨line, rfl⟩ := h
  have hresolve : Scalar.resolve boolTag (if b then "true" else "false") = some (.flag b) := by cases b <;> rfl
  exact gives_scalarOf _ (by decide) hresolve nofun (rfl : flagOf? _ = _) line

/-! ### Lists -/

/-- **The decoder of a list** gives what that of the items does. -/
theorem gives_list {γ : Type} {values : List γ} {shape : γ → Document} {decode : Node → Decode (Option γ)}
    (give : γ → γ) (hn : Shows listed (.list (values.map shape)) n)
    (h : ∀ x ∈ values, ∀ n, Shows listed (shape x) n → Gives (decode n) (some (give x))) :
    Gives (list type decode n) (some (some (values.map give))) := by
  obtain ⟨line, nodes, rfl, hnodes⟩ := hn
  have hitems : Gives (nodes.mapM decode) (values.map fun x => some (give x)) := by
    induction values generalizing nodes with
    | nil =>
      rw [map_nil, ShowsItems] at hnodes
      subst hnodes
      exact gives_pure []
    | cons x values ih =>
      rw [map_cons, ShowsItems] at hnodes
      obtain ⟨n, rest, rfl, hn, hrest⟩ := hnodes
      obtain ⟨hx, hvalues⟩ := forall_mem_cons.1 h
      rw [mapM_cons]
      exact (hx n hn).bind ((ih hvalues rest hrest).bind (gives_pure _))
  have hfilled : (values.map fun x => some (give x)).filterMap id = values.map give := by
    rw [filterMap_map]
    exact congrFun filterMap_eq_map values
  rw [← hfilled]
  exact gives_enter rfl (hitems.bind (gives_pure _))

/-- A list that is missing is found as an empty one, or missing. -/
theorem gives_missing {γ : Type} {decode : Node → Decode (Option γ)} (hn : Shows listed .missingList n) :
    Gives (list type decode n) (some (if listed then some [] else none)) := by
  obtain ⟨line, rfl⟩ := hn
  cases listed with
  | true => exact gives_enter rfl ((gives_pure []).bind (gives_pure _))
  | false => exact gives_enter rfl ((gives_meaning (by decide) rfl).bind (gives_pure _))

/-! ### Records -/

theorem gives_forIn {xs : List β} {f : β → PUnit → Decode (ForInStep PUnit)}
    (h : ∀ x ∈ xs, Gives (f x ()) (.yield ())) : Gives (forIn xs () f) () := by
  induction xs with
  | nil => exact gives_pure ()
  | cons x xs ih =>
    obtain ⟨hx, hxs⟩ := forall_mem_cons.1 h
    rw [forIn_cons]
    exact hx.bind (ih hxs)

/-- Nothing is noted when no key occurs again. -/
theorem gives_noteRepeats {keys : List Node} (h : (keys.map keyText).Nodup) : Gives (noteRepeats keys) () := by
  induction keys with
  | nil => exact gives_pure ()
  | cons key keys ih =>
    rw [map_cons, nodup_cons] at h
    rw [noteRepeats]
    refine (gives_forIn fun other hother => ?_).bind (ih h.2)
    have hne : keyText other ≠ keyText key := fun heq => h.1 (heq ▸ mem_map_of_mem hother)
    rw [if_neg (by simpa using hne)]
    exact gives_pure _

theorem gives_hasRepeats (h : (entries.map fun e => keyText e.1).Nodup) : Gives (hasRepeats entries) false := by
  have hnotes : Gives (noteRepeats (entries.map (·.1))) () := gives_noteRepeats (by rwa [map_map])
  intro anchors t hanchors ht
  obtain ⟨t', hrun, herrors, hsteps⟩ := hnotes anchors t hanchors ht
  refine ⟨t', ?_, herrors, hsteps⟩
  show (noteRepeats (entries.map (·.1)) anchors t).bind
    (fun p => .ok (decide (p.2.errors.length > t.errors.length), p.2)) = _
  rw [hrun, Except.bind, herrors]
  simp

/-- **The members of a document turn one record into another**: each is known, and its decoder gives the
    record that the next one starts from. -/
inductive Fills (listed : Bool) (members : List (Member α)) : α → List (String × Document) → α → Prop
  | nil (a : α) : Fills listed members a [] a
  | cons {a a' b : α} {m : String × Document} {ms : List (String × Document)} {set : α → Node → Decode α} :
    members.lookup m.1 = some set → (∀ n, Shows listed m.2 n → Gives (set a n) a') →
    Fills listed members a' ms b → Fills listed members a (m :: ms) b

theorem Fills.append {members : List (Member α)} {a b c : α} {ms' : List (String × Document)}
    (h : Fills listed members a ms b) (h' : Fills listed members b ms' c) :
    Fills listed members a (ms ++ ms') c := by
  induction h with
  | nil => exact h'
  | cons hlookup hset _ ih => exact .cons hlookup hset (ih h')

theorem gives_entry {name : String} {members : List (Member α)} {p : Progress α} {line : Nat}
    {set : α → Node → Decode α} {a : α} (hmerged : p.merged = none) (hlookup : members.lookup name = some set)
    (hdone : name ∉ p.done) (hset : Gives (set p.value n) a) :
    Gives (entry type members p (.scalar line strTag name, n)) { p with value := a, done := name :: p.done } := by
  have hshows : Shows true (.text name) (.scalar line strTag name) := ⟨line, strTag, rfl, .inl rfl⟩
  have hmerge : isMerge (.scalar line strTag name) = false := Bool.and_false _
  have hnot : p.done.contains name = false := by simpa using hdone
  rw [entry, hmerge, if_neg (by decide)]
  refine (gives_text "string" hshows).bind ?_
  simp only [hmerged, hlookup, hnot, Option.map_none, Option.getD_none, Bool.false_eq_true, if_false]
  exact hset.bind (gives_pure _)

/-- **The entries of a mapping** that shows the members of a document. -/
theorem gives_entries {members : List (Member α)} {a b : α} (h : Fills listed members a ms b)
    (hentries : ShowsMembers listed ms entries) (done : List String) (hnodup : (ms.map (·.1)).Nodup)
    (hdone : ∀ m ∈ ms, m.1 ∉ done) :
    ∃ done', Gives (entries.foldlM (entry type members) { value := a, done })
      { value := b, done := done' } := by
  induction h generalizing entries done with
  | nil a =>
    rw [ShowsMembers] at hentries
    subst hentries
    exact ⟨done, gives_pure _⟩
  | @cons a a' b m ms set hlookup hset _ ih =>
    rw [ShowsMembers] at hentries
    obtain ⟨line, n, rest, rfl, hn, hrest⟩ := hentries
    rw [map_cons, nodup_cons] at hnodup
    obtain ⟨hm, hms⟩ := forall_mem_cons.1 hdone
    have hentry : Gives (entry type members { value := a, done } (.scalar line strTag m.1, n))
        { value := a', done := m.1 :: done } := gives_entry type rfl hlookup hm (hset n hn)
    obtain ⟨done', hgives⟩ := ih hrest (m.1 :: done) hnodup.2 (by
      intro m' hm' hmem
      rcases mem_cons.1 hmem with heq | hmem
      · exact hnodup.1 (heq ▸ mem_map_of_mem hm')
      · exact hms m' hm' hmem)
    refine ⟨done', ?_⟩
    rw [foldlM_cons]
    exact hentry.bind hgives

theorem keyText_of_showsMembers (h : ShowsMembers listed ms entries) :
    entries.map (fun e => keyText e.1) = ms.map fun m => (0, m.1) := by
  induction ms generalizing entries with
  | nil =>
    rw [ShowsMembers] at h
    rw [h]
    rfl
  | cons m ms ih =>
    rw [ShowsMembers] at h
    obtain ⟨line, n, rest, rfl, -, hrest⟩ := h
    rw [map_cons, map_cons, ih hrest]
    rfl

/-- **The decoder of a record** whose members are known and each there once. -/
theorem gives_record {members : List (Member α)} {a b : α} (hn : Shows listed (.record ms) n)
    (hnodup : (ms.map (·.1)).Nodup) (h : Fills listed members a ms b) : Gives (record type members a n) (some b) := by
  obtain ⟨line, entries, rfl, hentries⟩ := hn
  have hkeys : (entries.map fun e => keyText e.1).Nodup := by
    rw [keyText_of_showsMembers hentries]
    have hpairs := hnodup.map (fun _ _ heq => (Prod.mk.inj heq).2 : Function.Injective (Prod.mk 0))
    rwa [map_map] at hpairs
  obtain ⟨done, hgives⟩ := gives_entries type h hentries [] hnodup (by simp)
  have hfrom : ∀ fuel, Gives (recordFrom type members (fuel + 1) [] none a (.mapping line mapTag entries))
      (b, none, true) := by
    intro fuel
    rw [recordFrom]
    exact (gives_pure []).bind (gives_enter rfl ((gives_hasRepeats hkeys).bind (hgives.bind (gives_pure _))))
  intro anchors t hanchors ht
  obtain ⟨fuel, hfuel⟩ := Nat.exists_eq_succ_of_ne_zero (Nat.ne_of_gt hanchors.depth)
  obtain ⟨t', hrun, herrors, hsteps⟩ := hfrom fuel anchors t hanchors ht
  refine ⟨t', ?_, herrors, hsteps⟩
  show (recordFrom type members anchors.depth [] none a (.mapping line mapTag entries) anchors t).bind _ = _
  rw [hfuel, hrun]
  rfl

/-! ### Whole texts -/

/-- A text whose tree has no anchors. -/
theorem run_of_tree {decoder : α → Node → Decode α} {value a : α} {source : String} {root : Node} {size : Nat}
    (htree : Tree.ofText? source = some { root := some root, anchored := [], size := size + 1 })
    (h : Gives (decoder value root) a) : run decoder value source = .ok a := by
  have hdirect : Anchors.Direct { nodes := [], depth := (size + 1) * (size + 1) + 1 } :=
    ⟨rfl, Nat.succ_pos _⟩
  obtain ⟨t, hrun, herrors, -⟩ := h _ { steps := 1 } hdirect rfl
  rw [run, htree]
  simp only [hrun, herrors]
  rfl

end Decode

end ServiceCompiler.Document
