import Mathlib.Tactic.Choose
import Mathlib.Tactic.SplitIfs
import ServiceCompiler.Json.Printer
import ServiceCompiler.Proofs.Effect
import ServiceCompiler.Proofs.Text.Literal

namespace ServiceCompiler.Json

open List Text
open Document (jsonText jsonParts jsonBreak escapeJson)

/-!
# Reading written values

What is written of a value that has been read is read as the same value.

* `Value` — values apart from how they are written.
* `Rereads` — what is written is read as the same value; `rereads_of_readValue` — that holds of all that has been read.
-/

variable {cs text rest : List Char} {depth : Nat} {j : Json}

/-! ### Values -/

/-- A value apart from how it is written: numbers are rounded, and members have no order. -/
inductive Value where
  | null
  | flag (b : Bool)
  | number (isNegative : Bool) (magnitude : Option Number.Binary)
  | text (s : String)
  | list (items : List Value)
  | record (member? : String → Option Value)

/-- The value of a form.  Of members with the same name, the last one counts. -/
def value : Json → Value
  | .null => .null
  | .flag b => .flag b
  | .number literal => .number (literalParts literal).1 (magnitude? literal)
  | .text s => .text s
  | .list items => .list (items.map value)
  | .record members => .record fun key => (lastMember? (members.map fun m => (m.1, m.2.value)) key).map Prod.snd
decreasing_by
  all_goals have := sizeOf_lt_of_mem ‹_›
  · simp only [list.sizeOf_spec]
    omega
  · cases m
    simp only [record.sizeOf_spec, Prod.mk.sizeOf_spec] at *
    omega

section Members

variable {α β : Type} {members : List (String × α)} {m : String × α} {key : String}

theorem of_lastMember? (h : lastMember? members key = some m) : m.1 = key ∧ m ∈ members := by
  rw [lastMember?] at h
  exact ⟨by simpa using find?_some h, mem_reverse.1 (mem_of_find?_eq_some h)⟩

/-- The members that are kept are the last ones of their names. -/
theorem mem_sortMembers : m ∈ sortMembers members ↔ lastMember? members m.1 = some m := by
  simp only [sortMembers, mem_filterMap, mem_mergeSort, mem_eraseDups, mem_map]
  constructor
  · rintro ⟨key, -, h⟩
    rwa [(of_lastMember? h).1]
  · exact fun h => ⟨m.1, ⟨m, (of_lastMember? h).2, rfl⟩, h⟩

theorem lastMember?_sortMembers : lastMember? (sortMembers members) key = lastMember? members key := by
  cases h : lastMember? (sortMembers members) key with
  | some m =>
    obtain ⟨rfl, hmem⟩ := of_lastMember? h
    exact (mem_sortMembers.1 hmem).symm
  | none =>
    refine (Option.eq_none_iff_forall_ne_some.2 fun m hm => ?_).symm
    obtain ⟨rfl, -⟩ := of_lastMember? hm
    simpa using find?_eq_none.1 h m (mem_reverse.2 (mem_sortMembers.2 hm))

theorem sortMembers_map (f : α → β) :
    sortMembers (members.map fun m => (m.1, f m.2)) = (sortMembers members).map fun m => (m.1, f m.2) := by
  have hlast : lastMember? (members.map fun m => (m.1, f m.2)) =
      fun key => (lastMember? members key).map fun m => (m.1, f m.2) := by
    funext key
    rw [lastMember?, ← map_reverse, find?_map]
    rfl
  rw [sortMembers, hlast, map_map, sortMembers, map_filterMap]
  rfl

end Members

/-! ### Texts -/

/-- The code of a character is no half of one. -/
theorem joinUnits_char (c : Char) (units : List Nat) : joinUnits (c.toNat :: units) = c :: joinUnits units := by
  have hvalid : c.toNat.isValidChar := c.valid
  have hfirst : isFirstHalf c.toNat = false := by simp [isFirstHalf]; omega
  have hsecond : isSecondHalf c.toNat = false := by simp [isSecondHalf]; omega
  cases units <;> simp [joinUnits, unitChar, hfirst, hsecond]

/-- What is written of a character is read as its code. -/
def ReadsChar (c : Char) (text : List Char) : Prop :=
  ∀ cs, readUnits (text ++ cs) = do
    let (units, rest) ← readUnits cs
    return (c.toNat :: units, rest)

theorem readsChar_letter {c e : Char} (h : escapeChar? e = some c) (hu : e ≠ 'u') : ReadsChar c ['\\', e] := by
  intro cs
  show readUnits ('\\' :: e :: cs) = _
  rw [readUnits.eq_6 e cs (fun _ _ _ _ _ he => absurd he hu) hu, h]

theorem readsChar_number {c : Char} (h : c.toNat < 0x10000) : ReadsChar c (['\\', 'u'] ++ hex 4 c.toNat) := by
  intro cs
  have hlength : (hex 4 c.toNat).length = 4 := length_hex (by decide) h
  have hnumber := natOf?_hex 4 c.toNat
  match hhex : hex 4 c.toNat, hlength with
  | [d₀, d₁, d₂, d₃], _ =>
    rw [hhex] at hnumber
    show readUnits ('\\' :: 'u' :: d₀ :: d₁ :: d₂ :: d₃ :: cs) = _
    rw [readUnits, code?, hnumber]

theorem readsChar_self {c : Char} (hquote : c ≠ '"') (hslash : c ≠ '\\') (h : ¬ c.toNat < 0x20) : ReadsChar c [c] := by
  intro cs
  show readUnits (c :: cs) = _
  rw [readUnits.eq_7 c cs hquote (by simp [hslash]) (by simp [hslash]) (by simp [hslash]) (by simp [hslash]), if_neg h]

theorem readsChar_escapeJson (c : Char) : ReadsChar c (escapeJson c) := by
  rw [escapeJson]
  split_ifs with hquote hslash hline hreturn htab hback hfeed hnumbered
  · subst hquote
    exact readsChar_letter rfl (by decide)
  · subst hslash
    exact readsChar_letter rfl (by decide)
  · subst hline
    exact readsChar_letter rfl (by decide)
  · subst hreturn
    exact readsChar_letter rfl (by decide)
  · subst htab
    exact readsChar_letter rfl (by decide)
  · obtain rfl : c = Char.ofNat 8 := by rw [← hback, Char.ofNat_toNat]
    exact readsChar_letter rfl (by decide)
  · obtain rfl : c = Char.ofNat 12 := by rw [← hfeed, Char.ofNat_toNat]
    exact readsChar_letter rfl (by decide)
  · refine readsChar_number ?_
    rcases hnumbered with h | rfl | rfl | rfl | h | h
    · omega
    · decide
    · decide
    · decide
    · omega
    · omega
  · exact readsChar_self hquote hslash fun h => hnumbered (.inl h)

/-- **A quoted text is read back.** -/
theorem readText_jsonText (s : String) (rest : List Char) :
    readText (s.toList.flatMap escapeJson ++ '"' :: rest) = .ok (s, rest) := by
  have hunits : ∀ cs : List Char, ∃ units, joinUnits units = cs ∧
      readUnits (cs.flatMap escapeJson ++ '"' :: rest) = .ok (units, rest) := by
    intro cs
    induction cs with
    | nil => exact ⟨[], by rw [joinUnits], by rw [flatMap_nil, nil_append, readUnits]⟩
    | cons c cs ih =>
      obtain ⟨units, rfl, hread⟩ := ih
      exact ⟨c.toNat :: units, joinUnits_char c units, by
        rw [flatMap_cons, append_assoc, readsChar_escapeJson, hread]
        rfl⟩
  obtain ⟨units, hjoin, hread⟩ := hunits s.toList
  rw [readText, hread]
  show Except.ok (String.ofList (joinUnits units), rest) = _
  rw [hjoin, String.ofList_toList]

/-! ### Numbers -/

/-- No number goes on there. -/
def Ends (rest : List Char) : Prop := ∀ c, rest.head? = some c → ∀ s : NumberState, s.next? c = none

theorem ends_cons {c : Char} (h : ∀ s : NumberState, s.next? c = none) (cs : List Char) : Ends (c :: cs) := by
  rintro _ ⟨⟩
  exact h

/-- **A number that has been read is read again**, wherever no number goes on behind it. -/
theorem read_again {s : NumberState} (h : s.read cs = .ok (text, rest)) {rest' : List Char} (hrest : Ends rest') :
    s.read (text ++ rest') = .ok (text, rest') := by
  have hend : ∀ s : NumberState, s.isEnd = true → s.read rest' = .ok ([], rest') := by
    intro s hs
    cases rest' with
    | nil => rw [NumberState.read, if_pos hs]
    | cons c cs => rw [NumberState.read, hrest c rfl s, if_pos hs]
  fun_induction NumberState.read s cs generalizing text with
  | case1 s hs =>
    cases h
    exact hend s hs
  | case2 s hs => cases h
  | case3 s c cs s' hnext ih =>
    obtain ⟨⟨literal, rest₁⟩, hread, h⟩ := exists_ok_of_bind h
    cases h
    rw [cons_append, NumberState.read, hnext]
    show (s'.read _ >>= _) = _
    rw [ih hread]
    rfl
  | case4 s c cs hnext hs =>
    cases h
    exact hend s hs
  | case5 => cases h

/-- Literals that have been read. -/
def IsRead (literal : String) : Prop := ∃ cs rest, readNumber cs = .ok (literal, rest)

theorem readWith_number {list record : List Char → Except JsonError (Json × List Char)} {s : String} (h : IsRead s)
    (hrest : Ends rest) : readWith list record (s.toList ++ rest) = .ok (.number s, rest) := by
  obtain ⟨cs, rest', h⟩ := h
  obtain ⟨⟨text, rest₁⟩, hread, h⟩ := exists_ok_of_bind h
  cases h
  have hagain := read_again hread hrest
  obtain ⟨c, ds, rfl, hc⟩ : ∃ c ds, text = c :: ds ∧ (NumberState.start.next? c).isSome := by
    rcases cs with _ | ⟨c, cs⟩
    · cases hread
    · rw [NumberState.read] at hread
      split at hread
      · next s' hnext =>
        obtain ⟨⟨ds, _⟩, -, hread⟩ := exists_ok_of_bind hread
        cases hread
        exact ⟨c, ds, rfl, by rw [hnext]; rfl⟩
      · cases hread
  have hspace : ¬ isSpace c := by
    intro hspace
    simp only [isSpace, Bool.or_eq_true, beq_iff_eq, or_assoc] at hspace
    rcases hspace with rfl | rfl | rfl | rfl <;> exact absurd hc (by decide)
  rw [cons_append] at hagain
  rw [String.toList_ofList, cons_append, readWith, skipSpace, dropWhile_cons_of_neg hspace]
  split
  case h_8 heq =>
    cases heq
    rw [if_pos hc, readNumber, hagain]
    rfl
  all_goals
    rename_i heq
    cases heq <;> exact absurd hc (by decide)

theorem value_numberText {literal : String} (h : IsRead literal) :
    (Json.number (numberText literal)).value = (Json.number literal).value ∧ IsRead (numberText literal) := by
  rw [numberText]
  cases hs : (List.map _ _).findSome? (sameNumber? literal) with
  | some s =>
    obtain ⟨text, -, htext⟩ := exists_of_findSome?_eq_some hs
    rw [sameNumber?] at htext
    split at htext
    · next s hread =>
      split at htext
      · next hsame =>
        cases htext
        exact ⟨by rw [value, value, ← hsame.1, ← hsame.2]; rfl, text, [], hread⟩
      · cases htext
    · cases htext
  | none => exact ⟨rfl, h⟩

/-! ### Parts on lines of their own -/

theorem skipSpace_break (level : Nat) (cs : List Char) : skipSpace (jsonBreak level ++ cs) = skipSpace cs := by
  have hspace : ∀ c ∈ jsonBreak level, isSpace c := by simp [jsonBreak, isSpace]
  exact dropWhile_append_of_pos hspace

section Parts

variable {α β : Type} {part : List Char → Except JsonError (β × List Char)} {close : Char} {place : String}

theorem of_mem_readParts {fuel : Nat} {bs : List β} (h : readParts part close place fuel cs = .ok (bs, rest)) :
    ∀ b ∈ bs, ∃ cs rest, part cs = .ok (b, rest) := by
  induction fuel generalizing cs bs rest with
  | zero => cases h
  | succ fuel ih =>
    obtain ⟨⟨b, rest₁⟩, hb, h⟩ := exists_ok_of_bind h
    obtain ⟨⟨more, rest₂⟩, -, h⟩ := exists_ok_of_bind h
    cases more with
    | false =>
      cases h
      exact forall_mem_singleton.2 ⟨cs, rest₁, hb⟩
    | true =>
      obtain ⟨⟨others, rest₃⟩, hothers, h⟩ := exists_ok_of_bind h
      cases h
      exact forall_mem_cons.2 ⟨⟨cs, rest₁, hb⟩, ih hothers⟩

theorem of_mem_readAll {bs : List β} (h : readAll part close place cs = .ok (bs, rest)) :
    ∀ b ∈ bs, ∃ cs rest, part cs = .ok (b, rest) := by
  rw [readAll] at h
  split at h
  · cases h
    exact nofun
  · exact of_mem_readParts h

variable {level : Nat} {text : α → List Char} {result : α → β} {as : List α}

/-- What is written of the parts is read, on lines of their own. -/
def ReadsParts (part : List Char → Except JsonError (β × List Char)) (level : Nat) (text : α → List Char)
    (result : α → β) (as : List α) : Prop :=
  ∀ a ∈ as, ∀ rest, Ends rest → part (jsonBreak level ++ (text a ++ rest)) = .ok (result a, rest)

variable (place) (hclose : close = ']' ∨ close = '\x7d')
include hclose

theorem readParts_written {a : α} (fuel outer : Nat) (rest : List Char)
    (h : ReadsParts part level text result (a :: as)) (hfuel : as.length < fuel) :
    readParts part close place fuel (jsonBreak level ++ ((',' :: jsonBreak level).intercalate ((a :: as).map text) ++
      (jsonBreak outer ++ close :: rest))) = .ok ((a :: as).map result, rest) := by
  obtain ⟨ha, has⟩ := forall_mem_cons.1 h
  obtain ⟨fuel, rfl⟩ : ∃ f, fuel = f + 1 := ⟨fuel - 1, by omega⟩
  induction as generalizing fuel a with
  | nil =>
    have hends : Ends (jsonBreak outer ++ close :: rest) := ends_cons (fun s => by cases s <;> rfl) _
    have hnext : readNext close place (jsonBreak outer ++ close :: rest) = .ok (false, rest) := by
      rw [readNext, skipSpace_break]
      rcases hclose with rfl | rfl <;> rfl
    rw [map_singleton, intercalate_singleton, readParts, ha _ hends]
    show (readNext close place _ >>= _) = _
    rw [hnext]
    rfl
  | cons b as ih =>
    obtain ⟨hb, has'⟩ := forall_mem_cons.1 has
    obtain ⟨fuel, rfl⟩ : ∃ f, fuel = f + 1 := ⟨fuel - 1, by simp at hfuel; omega⟩
    have hmore := ih has hb has' fuel (by simpa using hfuel)
    rw [map_cons, map_cons, intercalate_cons_cons, append_assoc, append_assoc, cons_append, readParts,
      ha _ (ends_cons (fun s => by cases s <;> rfl) _)]
    show (readParts part close place _ _ >>= _) = _
    rw [← map_cons, hmore]
    rfl

omit hclose in
theorem length_le_intercalate {sep : List Char} (hsep : sep ≠ []) (text : List Char) (texts : List (List Char)) :
    texts.length ≤ (sep.intercalate (text :: texts)).length := by
  induction texts generalizing text with
  | nil => exact Nat.zero_le _
  | cons second texts ih =>
    have hlength := length_pos_iff.2 hsep
    have hmore := ih second
    rw [intercalate_cons_cons]
    simp only [length_append, length_cons]
    omega

/-- **Parts on lines of their own are read back.** -/
theorem readAll_written (hnot : ∀ cs p, part cs = .ok p → (skipSpace cs).head? ≠ some close) (left : Char)
    (h : ReadsParts part (level + 1) text result as) (rest : List Char) :
    ∃ tail, jsonParts level left close (as.map text) ++ rest = left :: tail ∧
      readAll part close place tail = .ok (as.map result, rest) := by
  cases as with
  | nil =>
    refine ⟨close :: rest, rfl, ?_⟩
    rcases hclose with rfl | rfl <;> rfl
  | cons a as =>
    refine ⟨jsonBreak (level + 1) ++ ((',' :: jsonBreak (level + 1)).intercalate ((a :: as).map text) ++
      (jsonBreak level ++ close :: rest)), by simp [jsonParts], ?_⟩
    have hlength := length_le_intercalate (cons_ne_nil ',' (jsonBreak (level + 1))) (text a) (as.map text)
    have hparts := fun fuel => readParts_written place hclose fuel level rest h
    obtain ⟨p, hp, -⟩ := exists_ok_of_bind (hparts _ (Nat.lt_succ_self _))
    rw [length_map] at hlength
    rw [readAll, if_neg (hnot _ p hp)]
    exact hparts _ (by simp; omega)

end Parts

/-! ### Reading what is written -/

theorem readValue_congr {cs cs' : List Char} (h : skipSpace cs = skipSpace cs') : readValue depth cs = readValue depth cs' := by
  cases depth <;> rw [readValue, readWith, h, ← readWith, ← readValue]

theorem head_of_readValue (cs : List Char) (p : Json × List Char) (h : readValue depth cs = .ok p) :
    (skipSpace cs).head? ≠ some ']' := by
  intro hhead
  obtain ⟨ds, hds⟩ := head?_eq_some_iff.1 hhead
  cases depth <;> rw [readValue, readWith, hds] at h <;> cases h

theorem head_of_readMember (cs : List Char) (p : (String × Json) × List Char)
    (h : readMember (readValue depth) cs = .ok p) : (skipSpace cs).head? ≠ some '\x7d' := by
  intro hhead
  obtain ⟨ds, hds⟩ := head?_eq_some_iff.1 hhead
  rw [readMember, readKey, hds] at h
  cases h

theorem itemChars_eq (level : Nat) (items : List Json) : itemChars level items = items.map (chars level) := by
  induction items with
  | nil => rfl
  | cons item items ih => rw [itemChars, ih, map_cons]

theorem memberChars_eq (level : Nat) (members : List (String × Json)) :
    memberChars level members = members.map fun m => (m.1, chars level m.2) := by
  induction members with
  | nil => rfl
  | cons m members ih =>
    rw [memberChars, ih]
    rfl

/-- What is written is read as the same value. -/
def Rereads (depth : Nat) (j : Json) : Prop :=
  ∃ j', j'.value = j.value ∧ ∀ level rest, Ends rest → readValue depth (chars level j ++ rest) = .ok (j', rest)

/-- Values without parts, whose numbers have been read. -/
def IsScalar : Json → Prop
  | .number literal => IsRead literal
  | .list _ | .record _ => False
  | _ => True

theorem rereads_of_isScalar (h : IsScalar j) : Rereads depth j := by
  cases j with
  | null => exact ⟨.null, rfl, fun level rest _ => by cases depth <;> rfl⟩
  | flag b => exact ⟨.flag b, rfl, fun level rest _ => by cases depth <;> cases b <;> rfl⟩
  | text s =>
    refine ⟨.text s, rfl, fun level rest _ => ?_⟩
    have hread : (readText (s.toList.flatMap escapeJson ++ ['"'] ++ rest) >>= fun p => pure (Json.text p.1, p.2)) =
        Except.ok (.text s, rest) := by
      rw [append_assoc, singleton_append, readText_jsonText]
      rfl
    cases depth <;> exact hread
  | number literal =>
    obtain ⟨hvalue, hread⟩ := value_numberText h
    exact ⟨_, hvalue, fun level rest hrest => by cases depth <;> exact readWith_number hread hrest⟩
  | list items => exact h.elim
  | record members => exact h.elim

theorem rereads_list {items : List Json} (h : ∀ item ∈ items, Rereads depth item) : Rereads (depth + 1) (.list items) := by
  choose! f hvalue hread using h
  refine ⟨.list (items.map f), ?_, fun level rest hrest => ?_⟩
  · rw [value, value, map_map]
    exact congrArg Value.list (map_congr_left hvalue)
  · have hparts : ReadsParts (readValue depth) (level + 1) (chars (level + 1)) f items := by
      intro item hitem rest hrest
      rw [readValue_congr (skipSpace_break _ _)]
      exact hread item hitem _ _ hrest
    obtain ⟨tail, htail, hread⟩ :=
      readAll_written "after array element" (.inl rfl) head_of_readValue '[' hparts rest
    rw [chars, itemChars_eq, htail]
    show (readAll _ _ _ _ >>= _) = _
    rw [hread]
    rfl

theorem rereads_record {members : List (String × Json)} (h : ∀ m ∈ members, Rereads depth m.2) :
    Rereads (depth + 1) (.record members) := by
  have : Nonempty Json := ⟨.null⟩
  choose! f hvalue hread using h
  have hmem : ∀ m ∈ sortMembers members, m ∈ members := fun m hm => (of_lastMember? (mem_sortMembers.1 hm)).2
  refine ⟨.record ((sortMembers members).map fun m => (m.1, f m)), ?_, fun level rest hrest => ?_⟩
  · have hvalues : ((sortMembers members).map fun m => (m.1, f m)).map (fun m => (m.1, m.2.value)) =
        sortMembers (members.map fun m => (m.1, m.2.value)) := by
      rw [sortMembers_map, map_map]
      exact map_congr_left fun m hm => congrArg (m.1, ·) (hvalue m (hmem m hm))
    rw [value, value, hvalues]
    simp only [lastMember?_sortMembers]
  · have hparts : ReadsParts (readMember (readValue depth)) (level + 1)
        (fun m => memberText (m.1, chars (level + 1) m.2)) (fun m => (m.1, f m)) (sortMembers members) := by
      intro m hm rest hrest
      have htext : memberText (m.1, chars (level + 1) m.2) ++ rest =
          '"' :: (m.1.toList.flatMap escapeJson ++ '"' :: ':' :: ' ' :: (chars (level + 1) m.2 ++ rest)) := by
        simp [memberText, jsonText]
      have hspace : readValue depth (' ' :: (chars (level + 1) m.2 ++ rest)) = .ok (f m, rest) := by
        rw [← hread m (hmem m hm) (level + 1) rest hrest]
        exact readValue_congr rfl
      have hkey := readText_jsonText m.1 (':' :: ' ' :: (chars (level + 1) m.2 ++ rest))
      rw [htext, readMember, readKey, skipSpace_break]
      show ((readText _ >>= _) >>= _) = _
      rw [hkey]
      show (readValue depth _ >>= _) = _
      rw [hspace]
      rfl
    obtain ⟨tail, htail, hread⟩ :=
      readAll_written "after object key:value pair" (.inr rfl) head_of_readMember '\x7b' hparts rest
    rw [chars, memberChars_eq, sortMembers_map, map_map, Function.comp_def, htail]
    show (readAll _ _ _ _ >>= _) = _
    rw [hread]
    rfl

/-! ### Values that have been read -/

/-- What a value that has been read is made of. -/
theorem readValue_cases (h : readValue depth cs = .ok (j, rest)) : IsScalar j ∨ ∃ d, depth = d + 1 ∧
    ((∃ items, j = .list items ∧ ∀ item ∈ items, ∃ cs rest, readValue d cs = .ok (item, rest)) ∨
      ∃ members, j = .record members ∧ ∀ m ∈ members, ∃ cs rest, readValue d cs = .ok (m.2, rest)) := by
  have hwith : ∀ {list record : List Char → Except JsonError (Json × List Char)},
      readWith list record cs = .ok (j, rest) →
        IsScalar j ∨ (∃ cs, list cs = .ok (j, rest)) ∨ ∃ cs, record cs = .ok (j, rest) := by
    intro list record h
    rw [readWith] at h
    split at h
    · cases h
    · exact .inr (.inr ⟨_, h⟩)
    · exact .inr (.inl ⟨_, h⟩)
    case h_8 =>
      split at h
      · obtain ⟨p, hnumber, h⟩ := exists_ok_of_bind h
        cases h
        exact .inl ⟨_, _, hnumber⟩
      · cases h
    all_goals
      obtain ⟨p, -, h⟩ := exists_ok_of_bind h
      cases h
      exact .inl trivial
  cases depth with
  | zero =>
    rcases hwith h with h | ⟨cs, h⟩ | ⟨cs, h⟩
    · exact .inl h
    · cases h
    · cases h
  | succ d =>
    rcases hwith h with h | ⟨cs, h⟩ | ⟨cs, h⟩
    · exact .inl h
    · obtain ⟨p, hitems, h⟩ := exists_ok_of_bind h
      cases h
      exact .inr ⟨d, rfl, .inl ⟨_, rfl, of_mem_readAll hitems⟩⟩
    · obtain ⟨p, hmembers, h⟩ := exists_ok_of_bind h
      cases h
      refine .inr ⟨d, rfl, .inr ⟨_, rfl, fun m hm => ?_⟩⟩
      obtain ⟨cs, rest, hread⟩ := of_mem_readAll hmembers m hm
      obtain ⟨p, -, hread⟩ := exists_ok_of_bind hread
      obtain ⟨q, hvalue, hread⟩ := exists_ok_of_bind hread
      cases hread
      exact ⟨_, _, hvalue⟩

/-- **What has been read and written is read again** as the same value. -/
theorem rereads_of_readValue (h : readValue depth cs = .ok (j, rest)) : Rereads depth j := by
  induction depth generalizing cs j rest with
  | zero =>
    obtain h | ⟨d, hd, -⟩ := readValue_cases h
    · exact rereads_of_isScalar h
    · cases hd
  | succ depth ih =>
    obtain h | ⟨d, ⟨⟩, ⟨items, rfl, hitems⟩ | ⟨members, rfl, hmembers⟩⟩ := readValue_cases h
    · exact rereads_of_isScalar h
    · refine rereads_list fun item hitem => ?_
      obtain ⟨cs, rest, hread⟩ := hitems item hitem
      exact ih hread
    · refine rereads_record fun m hm => ?_
      obtain ⟨cs, rest, hread⟩ := hmembers m hm
      exact ih hread

end ServiceCompiler.Json
