import Mathlib.Data.List.TakeWhile
import ServiceCompiler.Document.Word
import ServiceCompiler.Document.Yaml
import ServiceCompiler.Proofs.Document.Cursor

namespace ServiceCompiler.Document

open Mark List

/-!
# Scalars read back

What the readers of scalars give on a text in front of what may follow it.  A text is read word by word,
with the spaces between two words, so each proof goes by the first word of a text.

* `plain?_text` — a plain text that ends with its line.
* `quoted?_encoded` — a text between quotes, for every way of writing its characters that the reader of
  words undoes (`WordCode`).
-/

variable {cs : List Char}

/-! ### Gaps -/

/-- A text that does not begin with a gap. -/
def Stops (cs : List Char) : Prop := ∀ c ∈ cs.head?, isGap c = false ∧ isBreak c = false

theorem stops_nil : Stops [] := by simp [Stops]

theorem stops_cons {c : Char} (h : isLineChar c) (hc : c ≠ ' ') (cs : List Char) : Stops (c :: cs) := by
  intro d hd
  obtain rfl : c = d := by simpa using hd
  exact ⟨by rw [isGap_eq_of_isLineChar h]; simpa using hc, isBreak_of_isLineChar h⟩

theorem Stops.startsGap {c : Char} (h : Stops (c :: cs)) : startsGap (c :: cs) = false := by
  obtain ⟨hgap, hbreak⟩ := h c rfl
  rw [Document.startsGap, hgap, hbreak]
  rfl

namespace Gap

variable {column : Int} {ds : List Char}

theorem read?_stop (h : Stops ds) (g : Gap) (m : Mark) : read? column g ds m = some (g, ⟨ds, m⟩) := by
  cases ds with
  | nil => rw [read?]
  | cons c cs =>
    obtain ⟨hgap, hbreak⟩ := h c rfl
    have hc : c ≠ '\r' := by
      rintro rfl
      exact absurd hbreak (by decide)
    rw [read?]
    · simp [hgap, hbreak]
    · rintro _ rfl
      exact absurd rfl hc

/-- Spaces on a line are kept. -/
theorem read?_spaces (g : List Char) (n : Nat) (m : Mark) :
    read? column (.spaces g) (replicate n ' ' ++ ds) m =
      read? column (.spaces (g ++ replicate n ' ')) ds (m.ahead n) := by
  induction n generalizing g m with
  | zero => simp [ahead]
  | succ n ih =>
    rw [replicate_succ, cons_append, read?]
    · have hread : read? column ((spaces g).addSpace ' ') (replicate n ' ' ++ ds) (m.ahead 1) =
          read? column (.spaces (g ++ ' ' :: replicate n ' ')) ds (m.ahead (n + 1)) := by
        rw [addSpace, ih, append_assoc, ahead_ahead, Nat.add_comm 1 n]
        rfl
      simpa [isGap] using hread
    · rintro _ h
      exact absurd h (by decide)

/-- Spaces behind a line break count for nothing. -/
theorem read?_indentation (n : Nat) (m : Mark) :
    read? column (.breaks ['\n'] []) (replicate n ' ' ++ ds) m =
      read? column (.breaks ['\n'] []) ds (m.ahead n) := by
  induction n generalizing m with
  | zero => rfl
  | succ n ih =>
    rw [replicate_succ, cons_append, read?]
    · have hread : read? column ((breaks ['\n'] []).addSpace ' ') (replicate n ' ' ++ ds) (m.ahead 1) =
          read? column (.breaks ['\n'] []) ds (m.ahead (n + 1)) := by
        rw [addSpace]
        · rw [ih, ahead_ahead, Nat.add_comm 1 n]
        · intro cs h
          exact absurd h (by simp)
      simpa [isGap] using hread
    · rintro _ h
      exact absurd h (by decide)

/-- The end of a line and the indentation of the next one. -/
theorem read?_line (h : Stops ds) (n : Nat) (m : Mark) :
    read? column (.spaces []) ('\n' :: replicate n ' ' ++ ds) m =
      some (.breaks ['\n'] [], ⟨ds, m.beyond ('\n' :: replicate n ' ')⟩) := by
  have hread : read? column (.breaks ['\n'] []) (replicate n ' ' ++ ds) (m.nextLine 1) =
      some (.breaks ['\n'] [], ⟨ds, m.beyond ('\n' :: replicate n ' ')⟩) := by
    rw [read?_indentation, read?_stop h, beyond, if_pos rfl, beyond_eq_ahead _ (notMem_spaces n), length_replicate]
  rw [cons_append, read?]
  · simpa [isGap, isBreak, addBreak, breakText, isSeparator] using hread
  · rintro _ h
    exact absurd h (by decide)

end Gap

/-! ### The first word -/

/-- A text is a word, the spaces behind it, and a rest that begins with no space. -/
theorem exists_firstWord (cs : List Char) :
    ∃ word n rest, cs = word ++ (replicate n ' ' ++ rest) ∧ ' ' ∉ word ∧
      rest.head? ≠ some ' ' ∧ (n = 0 → rest = []) := by
  refine ⟨cs.takeWhile (· != ' '), ((cs.dropWhile (· != ' ')).takeWhile (· == ' ')).length,
    (cs.dropWhile (· != ' ')).dropWhile (· == ' '), ?_, ?_, ?_, ?_⟩
  · have hspaces : replicate ((cs.dropWhile (· != ' ')).takeWhile (· == ' ')).length ' ' =
        (cs.dropWhile (· != ' ')).takeWhile (· == ' ') := by
      symm
      refine eq_replicate_iff.2 ⟨rfl, fun c hc => ?_⟩
      simpa using mem_takeWhile_imp hc
    rw [hspaces, takeWhile_append_dropWhile, takeWhile_append_dropWhile]
  · intro h
    simpa using mem_takeWhile_imp h
  · intro h
    have := head?_dropWhile_not (· == ' ') (cs.dropWhile (· != ' '))
    simp [h] at this
  · intro h
    rw [length_eq_zero_iff] at h
    have hhead := head?_dropWhile_not (· != ' ') cs
    cases hdrop : cs.dropWhile (· != ' ') with
    | nil => rfl
    | cons c rest =>
      -- What follows the word begins with a space, so some are taken.
      rw [hdrop] at h hhead
      have hc : c = ' ' := by simpa using hhead
      rw [hc] at h
      simp at h

namespace Cursor

variable {m : Mark}

/-! ### Plain scalars -/

/-- A character of a word in a plain scalar. -/
def isWordChar (inFlow : Bool) (c : Char) : Bool :=
  !(isGap c || isBreak c || (inFlow && ",?[]\x7b\x7d".toList.contains c))

theorem isWordChar_block {c : Char} (h : isLineChar c) (hc : c ≠ ' ') : isWordChar false c = true := by
  rw [isWordChar, isGap_eq_of_isLineChar h, isBreak_of_isLineChar h]
  simpa using hc

/-- A word ends where a word does not go on. -/
theorem plainWord_append {inFlow : Bool} {word ds : List Char} (hword : ∀ c ∈ word, isWordChar inFlow c)
    (hcolon : ∀ a b, word = a ++ ':' :: b → startsGap (b ++ ds) = false)
    (hds : plainWord inFlow ds = []) : plainWord inFlow (word ++ ds) = word := by
  induction word with
  | nil => exact hds
  | cons c word ih =>
    have hc : isWordChar inFlow c = true := hword c mem_cons_self
    have hrest : plainWord inFlow (word ++ ds) = word :=
      ih (fun d hd => hword d (mem_cons_of_mem c hd)) fun a b h => hcolon (c :: a) b (by rw [h]; rfl)
    have hmapping : (c == ':' && startsGap (word ++ ds)) = false := by
      by_cases h : c = ':'
      · rw [hcolon [] word (by rw [h]; rfl), Bool.and_false]
      · rw [beq_eq_false_iff_ne.2 h, Bool.false_and]
    rw [isWordChar, Bool.not_eq_true', Bool.or_eq_false_iff] at hc
    rw [cons_append, plainWord, hmapping, Bool.or_false, hc.1, hc.2, hrest]
    rfl

/-- A text that is read plain up to the end of its line. -/
structure IsPlainText (cs : List Char) : Prop where
  line : ∀ c ∈ cs, isLineChar c
  colon : hasMappingColon cs = false
  comment : hasPair (fun c => isGap c || isBreak c || c.toNat == 0) (· == '#') cs = false
  getLast : cs.getLast? ≠ some ' '

theorem IsPlainText.of_cons {c : Char} (h : IsPlainText (c :: cs)) (hne : cs ≠ []) :
    IsPlainText cs where
  line d hd := h.line d (mem_cons_of_mem c hd)
  colon := (Bool.or_eq_false_iff.1 h.colon).2
  comment := by
    cases cs with
    | nil => rfl
    | cons d cs => exact (Bool.or_eq_false_iff.1 h.comment).2
  getLast := by
    obtain ⟨d, ds, rfl⟩ := exists_cons_of_ne_nil hne
    simpa using h.getLast

theorem IsPlainText.of_append {ds : List Char} (h : IsPlainText (cs ++ ds)) (hne : ds ≠ []) : IsPlainText ds := by
  induction cs with
  | nil => exact h
  | cons c cs ih => exact ih (h.of_cons (by simp [hne]))

/-- The colons of a plain text stand in front of further characters of their words. -/
theorem IsPlainText.colon_word {word rest ds : List Char} (h : IsPlainText (word ++ rest))
    (hword : ' ' ∉ word) (hrest : rest = [] ∨ rest.head? = some ' ') (a b : List Char)
    (hab : word = a ++ ':' :: b) : startsGap (b ++ ds) = false := by
  have hcolon : IsPlainText (':' :: (b ++ rest)) := by
    rw [hab, append_assoc] at h
    exact h.of_append (by simp)
  have hnot := (Bool.or_eq_false_iff.1 hcolon.colon).1
  cases b with
  | nil =>
    -- The colon would end the text or stand in front of a space.
    rcases hrest with rfl | hrest
    · exact absurd hnot (by decide)
    · rw [nil_append, hrest] at hnot
      simp [isGap] at hnot
  | cons c b =>
    have hc : isLineChar c := hcolon.line c (by simp)
    have hspace : c ≠ ' ' := by
      rintro rfl
      exact hword (by rw [hab]; simp)
    exact (stops_cons hc hspace _).startsGap

/-- No comment begins inside a plain text. -/
theorem IsPlainText.ne_hash {d : Char} {ds : List Char}
    (h : IsPlainText (cs ++ ' ' :: d :: ds)) : d ≠ '#' := by
  have hpair : IsPlainText (' ' :: d :: ds) := h.of_append (by simp)
  have hnot := (Bool.or_eq_false_iff.1 hpair.comment).1
  rintro rfl
  exact absurd hnot (by decide)

theorem atDocumentMark_of_column {c : Cursor} (h : 0 < c.mark.column) : c.atDocumentMark = false := by
  have hne : c.mark.column ≠ 0 := Nat.pos_iff_ne_zero.1 h
  rw [atDocumentMark, beq_eq_false_iff_ne.2 hne]
  rfl

theorem at_cons {d e : Char} {ds : List Char} (h : d ≠ e) : (⟨d :: ds, m⟩ : Cursor).at_ e = false := by
  simpa [at_, head?] using h

/-- Reading on at the beginning of a word takes the word. -/
theorem plainFrom_step {inFlow : Bool} {column : Int} {fuel : Nat} {taken g word ds : List Char}
    (hmark : (⟨word ++ ds, m⟩ : Cursor).atDocumentMark = false)
    (hhash : (⟨word ++ ds, m⟩ : Cursor).at_ '#' = false) (hne : word ≠ [])
    (hword : plainWord inFlow (word ++ ds) = word) (hline : '\n' ∉ word) :
    plainFrom inFlow column (fuel + 1) taken (.spaces g) ⟨word ++ ds, m⟩ =
      if ds.isEmpty || !startsGap ds then some (taken ++ g ++ word, .spaces [], ⟨ds, m.beyond word⟩)
      else
        (Gap.read? column (.spaces []) ds (m.beyond word)).bind fun p =>
          if !inFlow && (p.2.mark.column : Int) < column then some (taken ++ g ++ word, p.1, p.2)
          else plainFrom inFlow column fuel (taken ++ g ++ word) p.1 p.2 := by
  rw [plainFrom, hmark, hhash]
  simp only [Bool.or_self, hword, skip_append hline, List.isEmpty_iff, hne, if_false, Gap.joined]
  rfl

section Line

variable {column : Int} {fuel k n : Nat} {taken g word ds : List Char}

/-- The last word of a line, behind which the next line stands further out. -/
theorem plainFrom_lastWord
    (hmark : (⟨word ++ ('\n' :: replicate k ' ' ++ ds), m⟩ : Cursor).atDocumentMark = false)
    (hhash : word.head? ≠ some '#') (hne : word ≠ [])
    (hword : plainWord false (word ++ ('\n' :: replicate k ' ' ++ ds)) = word)
    (hline : '\n' ∉ word) (hds : Stops ds) (hk : (k : Int) < column) :
    plainFrom false column (fuel + 1) taken (.spaces g)
        ⟨word ++ ('\n' :: replicate k ' ' ++ ds), m⟩ =
      some (taken ++ g ++ word, .breaks ['\n'] [],
        ⟨ds, m.beyond (word ++ '\n' :: replicate k ' ')⟩) := by
  obtain ⟨c, w, rfl⟩ := exists_cons_of_ne_nil hne
  have hout : ((m.beyond (c :: w ++ '\n' :: replicate k ' ')).column : Int) < column := by
    rw [column_beyond_line m (c :: w) k]
    exact hk
  rw [plainFrom_step hmark (at_cons (by simpa using hhash)) hne hword hline, Gap.read?_line hds, ← beyond_append]
  simp only [Option.bind_some, hout, Bool.not_false, Bool.true_and, decide_true, if_true]
  rfl

/-- A word with spaces behind it, after which reading goes on. -/
theorem plainFrom_nextWord (hmark : (⟨word ++ (replicate (n + 1) ' ' ++ ds), m⟩ : Cursor).atDocumentMark = false)
    (hhash : word.head? ≠ some '#') (hne : word ≠ [])
    (hword : plainWord false (word ++ (replicate (n + 1) ' ' ++ ds)) = word)
    (hline : '\n' ∉ word) (hds : Stops ds) (hcolumn : column ≤ m.column) :
    plainFrom false column (fuel + 1) taken (.spaces g) ⟨word ++ (replicate (n + 1) ' ' ++ ds), m⟩ =
      plainFrom false column fuel (taken ++ g ++ word) (.spaces (replicate (n + 1) ' '))
        ⟨ds, m.beyond (word ++ replicate (n + 1) ' ')⟩ := by
  obtain ⟨c, w, rfl⟩ := exists_cons_of_ne_nil hne
  have hlines : '\n' ∉ c :: w ++ replicate (n + 1) ' ' := by
    rw [mem_append]
    rintro (h | h)
    · exact hline h
    · exact notMem_spaces _ h
  have hbeyond : (m.beyond (c :: w)).ahead (n + 1) = m.beyond (c :: w ++ replicate (n + 1) ' ') := by
    rw [beyond_append, beyond_eq_ahead (m.beyond (c :: w)) (notMem_spaces _), length_replicate]
  have hnot : ¬ ((m.beyond (c :: w ++ replicate (n + 1) ' ')).column : Int) < column := by
    rw [beyond_eq_ahead m hlines]
    simp only [ahead]
    omega
  rw [plainFrom_step hmark (at_cons (by simpa using hhash)) hne hword hline, Gap.read?_spaces,
    Gap.read?_stop hds, hbeyond]
  simp only [Option.bind_some, hnot, nil_append, decide_false, Bool.and_false]
  rfl

end Line

section

variable {column : Int} {ds : List Char} (hcs : IsPlainText cs) (hne : cs ≠ []) (hspace : cs.head? ≠ some ' ')
  (hhash : cs.head? ≠ some '#')
include hcs hne hspace hhash

/-- **A plain text that ends with its line.** The next line has to stand further out. -/
theorem plainFrom_text {k fuel : Nat} {taken g : List Char}
    
    (hmark : (⟨cs ++ ('\n' :: replicate k ' ' ++ ds), m⟩ : Cursor).atDocumentMark = false)
    (hds : Stops ds) (hk : (k : Int) < column) (hcolumn : column ≤ m.column) (hfuel : cs.length ≤ fuel) :
    plainFrom false column fuel taken (.spaces g) ⟨cs ++ ('\n' :: replicate k ' ' ++ ds), m⟩ =
      some (taken ++ g ++ cs, .breaks ['\n'] [],
        ⟨ds, m.beyond (cs ++ '\n' :: replicate k ' ')⟩) := by
  induction fuel generalizing cs m taken g with
  | zero => exact absurd (length_eq_zero_iff.1 (Nat.le_zero.1 hfuel)) hne
  | succ fuel ih =>
    obtain ⟨word, n, rest, rfl, hword, hrest, hzero⟩ := exists_firstWord cs
    have hline : '\n' ∉ word := fun h => absurd (hcs.line _ (mem_append_left _ h)) (by decide)
    have hchars : ∀ d ∈ word, isWordChar false d := by
      intro d hd
      exact isWordChar_block (hcs.line d (mem_append_left _ hd)) (fun h => hword (h ▸ hd))
    have hafter : replicate n ' ' ++ rest = [] ∨
        (replicate n ' ' ++ rest).head? = some ' ' := by
      cases n with
      | zero => exact .inl (by simp [hzero rfl])
      | succ n => exact .inr rfl
    have hword0 : word ≠ [] := by
      rintro rfl
      exact hafter.elim hne hspace
    have hcolon : ∀ tail a b, word = a ++ ':' :: b → startsGap (b ++ tail) = false :=
      fun tail a b hab => hcs.colon_word hword hafter a b hab
    rw [head?_append, Option.or_of_isSome (by simpa using hword0)] at hhash
    cases n with
    | zero =>
      obtain rfl := hzero rfl
      rw [replicate_zero, nil_append, append_nil] at hmark ⊢
      exact plainFrom_lastWord hmark hhash hword0 (plainWord_append hchars (hcolon _) rfl) hline hds hk
    | succ n =>
      have hrest0 : rest ≠ [] := by
        rintro rfl
        apply hcs.getLast
        rw [append_nil, getLast?_append, getLast?_replicate]
        rfl
      obtain ⟨d, rest, rfl⟩ := exists_cons_of_ne_nil hrest0
      have hd : d ≠ ' ' := by simpa using hrest
      have hlineChar : isLineChar d := hcs.line d (by simp)
      have hspaces : word ++ (replicate (n + 1) ' ' ++ d :: rest) =
          (word ++ replicate n ' ') ++ ' ' :: d :: rest := by
        simp [replicate_succ']
      have hdhash : d ≠ '#' := (hspaces ▸ hcs).ne_hash
      have htail : IsPlainText (d :: rest) := (hcs.of_append (by simp)).of_append (by simp)
      have hpos : 0 < (m.beyond (word ++ replicate (n + 1) ' ')).column := by
        rw [beyond_append, beyond_eq_ahead _ (notMem_spaces _), length_replicate]
        exact Nat.succ_pos _
      have hcol : column ≤ ((m.beyond (word ++ replicate (n + 1) ' ')).column : Int) := by
        rw [beyond_append, beyond_eq_ahead _ hline, beyond_eq_ahead _ (notMem_spaces _)]
        simp only [ahead]
        omega
      rw [append_assoc, append_assoc] at hmark ⊢
      rw [plainFrom_nextWord hmark hhash hword0 (plainWord_append hchars (hcolon _) rfl) hline
          (stops_cons hlineChar hd _) hcolumn,
        ih htail (cons_ne_nil _ _) (by simpa using hd) (by simpa using hdhash)
          (atDocumentMark_of_column hpos) hcol (by simp at hfuel ⊢; omega), ← beyond_append]
      simp only [append_assoc]

/-- **A plain text as a whole.** -/
theorem plain?_text {k : Nat}
    
    (hmark : (⟨cs ++ ('\n' :: replicate k ' ' ++ ds), m⟩ : Cursor).atDocumentMark = false)
    (hds : Stops ds) (hk : (k : Int) < column) (hcolumn : column ≤ m.column) :
    (⟨cs ++ ('\n' :: replicate k ' ' ++ ds), m⟩ : Cursor).plain? false column =
      some (cs, .breaks ['\n'] [], ⟨ds, m.beyond (cs ++ '\n' :: replicate k ' ')⟩) := by
  rw [plain?, plainFrom_text hcs hne hspace hhash hmark hds hk hcolumn (by simp; omega)]
  simp

end

theorem atDocumentMark_cons {c : Char} (hdash : c ≠ '-') (hdot : c ≠ '.') :
    (⟨c :: cs, m⟩ : Cursor).atDocumentMark = false := by
  simp [atDocumentMark, hdash, hdot]

/-! ### Quoted scalars -/

/-- The reader of words between quotes. -/
def quotedWord? (quote : Char) (cs : List Char) : Option (List Char × Nat) :=
  if quote == '\'' then some (singleWord cs) else doubleWord? cs.length cs

theorem le_length_flatMap (code : Char → List Char) (h : ∀ c ∈ cs, code c ≠ []) :
    cs.length ≤ (cs.flatMap code).length := by
  induction cs with
  | nil => exact Nat.le_refl _
  | cons c cs ih =>
    have hpos : 0 < (code c).length := length_pos_iff.2 (h c mem_cons_self)
    have hrest := ih fun d hd => h d (mem_cons_of_mem c hd)
    rw [flatMap_cons, length_append, length_cons]
    omega

/-- What is done behind a word between quotes. -/
def behindWord (quote : Char) (fuel : Nat) (taken : List Char) (c : Cursor) (joinsLines : Bool) :
    Option (List Char × Cursor) :=
  let c := if joinsLines then (c.skip 1).readBreak.2 else c
  if c.at_ quote then some (taken, c.skip 1)
  else
    (Gap.read? 0 (if joinsLines then .breaks [] [] else .spaces []) c.rest c.mark).bind fun p =>
      quotedFrom quote fuel (taken ++ p.1.joined) p.2

theorem quotedFrom_succ (quote : Char) (fuel : Nat) (taken : List Char) (c : Cursor) :
    quotedFrom quote (fuel + 1) taken c =
      if c.atDocumentMark || c.rest.isEmpty then none
      else
        (quotedWord? quote c.rest).bind fun p =>
          behindWord quote fuel (taken ++ p.1) (c.skip p.2) (quote == '"' && (c.skip p.2).at_ '\\') := by
  rw [quotedFrom, quotedWord?]
  split
  · rfl
  · split <;> rfl

/-- A way of writing some characters between quotes: spaces stand for themselves, and the reader of words
    gives the characters of a word back, in front of a space or the closing quote. -/
structure WordCode (p : Char → Prop) (quote : Char) (code : Char → List Char) : Prop where
  quote_ne : quote ≠ '\\'
  space : code ' ' = [' ']
  stops : ∀ c, p c → c ≠ ' ' → ∀ ds, Stops (code c ++ ds)
  line : ∀ c, p c → ∀ d ∈ code c, isLineChar d
  length : ∀ c, p c → code c ≠ []
  space_stops : isGap quote = false ∧ isBreak quote = false
  reads : ∀ word ds, (∀ c ∈ word, p c ∧ c ≠ ' ') →
    (ds.head? = some ' ' ∨ (ds.head? = some quote ∧ ds.tail.head? ≠ some '\'')) →
    quotedWord? quote (word.flatMap code ++ ds) = some (word, (word.flatMap code).length)

namespace WordCode

variable {p : Char → Prop} {quote : Char} {code : Char → List Char} (h : WordCode p quote code)
include h

theorem flatMap_spaces (n : Nat) : (replicate n ' ').flatMap code = replicate n ' ' := by
  induction n with
  | zero => rfl
  | succ n ih => rw [replicate_succ, flatMap_cons, h.space, ih]; rfl

theorem line_flatMap (hcs : ∀ c ∈ cs, p c) : ∀ d ∈ cs.flatMap code, isLineChar d := by
  intro d hd
  obtain ⟨c, hc, hd⟩ := mem_flatMap.1 hd
  exact h.line c (hcs c hc) d hd

/-- Reading on between quotes takes a word. -/
theorem quotedFrom_step (fuel : Nat) (taken : List Char) {word ds : List Char} (hcolumn : 0 < m.column)
    (hword : ∀ c ∈ word, p c ∧ c ≠ ' ')
    (hds : ds.head? = some ' ' ∨ (ds.head? = some quote ∧ ds.tail.head? ≠ some '\'')) :
    quotedFrom quote (fuel + 1) taken ⟨word.flatMap code ++ ds, m⟩ =
      if ds.head? = some quote then
        some (taken ++ word, (⟨ds, m.beyond (word.flatMap code)⟩ : Cursor).skip 1)
      else
        (Gap.read? 0 (.spaces []) ds (m.beyond (word.flatMap code))).bind fun p =>
          quotedFrom quote fuel (taken ++ word ++ p.1.joined) p.2 := by
  obtain ⟨d, ds, rfl⟩ : ∃ d tail, ds = d :: tail := by
    cases ds with
    | nil => simp at hds
    | cons d tail => exact ⟨d, tail, rfl⟩
  have hd : d ≠ '\\' := by
    rintro rfl
    rcases hds with hds | ⟨hds, -⟩
    · exact absurd (Option.some.inj hds) (by decide)
    · exact h.quote_ne (Option.some.inj hds).symm
  have hline := notMem_newline_of_line (h.line_flatMap fun c hc => (hword c hc).1)
  have hread := h.reads word (d :: ds) hword hds
  have hmark : (⟨word.flatMap code ++ d :: ds, m⟩ : Cursor).atDocumentMark = false :=
    atDocumentMark_of_column hcolumn
  have hempty : (word.flatMap code ++ d :: ds).isEmpty = false := by simp
  rw [quotedFrom_succ, hmark, hempty, hread, Option.bind_some, skip_append hline, at_cons hd,
    Bool.and_false, behindWord]
  simp only [at_, head?, beq_iff_eq]
  rfl

/-- **A text between quotes.** -/
theorem quotedFrom_encoded {fuel : Nat} {taken ds : List Char} (hcolumn : 0 < m.column)
    (hcs : ∀ c ∈ cs, p c) (hds : ds.head? ≠ some '\'') (hfuel : cs.length < fuel) :
    quotedFrom quote fuel taken ⟨cs.flatMap code ++ quote :: ds, m⟩ =
      some (taken ++ cs, (⟨quote :: ds, m.beyond (cs.flatMap code)⟩ : Cursor).skip 1) := by
  induction fuel generalizing cs m taken with
  | zero => exact absurd hfuel (Nat.not_lt_zero _)
  | succ fuel ih =>
    obtain ⟨word, n, rest, rfl, hword, hrest, hzero⟩ := exists_firstWord cs
    have hchars : ∀ c ∈ word, p c ∧ c ≠ ' ' := fun c hc =>
      ⟨hcs c (mem_append_left _ hc), fun h => hword (h ▸ hc)⟩
    have hrestChars : ∀ c ∈ rest, p c := fun c hc =>
      hcs c (mem_append_right _ (mem_append_right _ hc))
    rw [flatMap_append, flatMap_append, h.flatMap_spaces, append_assoc, append_assoc]
    cases n with
    | zero =>
      -- The last word stands in front of the closing quote.
      obtain rfl := hzero rfl
      have hquote : (quote :: ds).head? = some quote ∧ (quote :: ds).tail.head? ≠ some '\'' := ⟨rfl, hds⟩
      have hlast := h.quotedFrom_step fuel taken hcolumn hchars (.inr hquote)
      simpa using hlast
    | succ n =>
      have hstops : Stops (rest.flatMap code ++ quote :: ds) := by
        cases rest with
        | nil =>
          intro d hd
          obtain rfl : quote = d := by simpa using hd
          exact h.space_stops
        | cons d rest =>
          have hd : d ≠ ' ' := by simpa using hrest
          rw [flatMap_cons, append_assoc]
          exact h.stops d (hrestChars d mem_cons_self) hd _
      have hquote : ' ' ≠ quote := by
        rintro rfl
        exact absurd h.space_stops.1 (by decide)
      have hbeyond : (m.beyond (word.flatMap code)).ahead (n + 1) =
          m.beyond (word.flatMap code ++ replicate (n + 1) ' ') := by
        rw [beyond_append, beyond_eq_ahead (m.beyond (word.flatMap code)) (notMem_spaces _), length_replicate]
      have hpos : 0 < (m.beyond (word.flatMap code ++ replicate (n + 1) ' ')).column := by
        rw [← hbeyond]
        exact Nat.succ_pos _
      rw [h.quotedFrom_step fuel taken hcolumn hchars (.inl rfl), Gap.read?_spaces, Gap.read?_stop hstops, hbeyond]
      have hnot : ¬ (replicate (n + 1) ' ' ++ (rest.flatMap code ++ quote :: ds)).head? = some quote := by
        simpa [replicate_succ] using hquote
      rw [if_neg hnot, Option.bind_some, ih hpos hrestChars (by simp at hfuel; omega), Gap.joined]
      simp [beyond_append]

theorem quoted?_encoded {ds : List Char} (hcs : ∀ c ∈ cs, p c) (hds : ds.head? ≠ some '\'') :
    (⟨quote :: (cs.flatMap code ++ quote :: ds), m⟩ : Cursor).quoted? quote =
      some (cs, ⟨ds, m.ahead ((cs.flatMap code).length + 2)⟩) := by
  have hfuel : cs.length < (quote :: (cs.flatMap code ++ quote :: ds)).length + 1 := by
    have := le_length_flatMap code fun c hc => h.length c (hcs c hc)
    simp only [length_cons, length_append]
    omega
  have hskip : (⟨quote :: (cs.flatMap code ++ quote :: ds), m⟩ : Cursor).skip 1 =
      ⟨cs.flatMap code ++ quote :: ds, m.ahead 1⟩ := rfl
  rw [quoted?, hskip, h.quotedFrom_encoded (Nat.succ_pos _) hcs hds hfuel,
    beyond_eq_ahead _ (notMem_newline_of_line (h.line_flatMap hcs)), ahead_ahead]
  simp only [skip, ahead_ahead, nil_append]
  congr 4
  omega

end WordCode

/-! ### Codes -/

/-- Between single quotes a quote is written twice. -/
def singleCode (c : Char) : List Char := if c == '\'' then ['\'', '\''] else [c]

theorem singleWord_append {word ds : List Char} (hword : ∀ c ∈ word, isLineChar c ∧ c ≠ ' ')
    (hds : ds.head? = some ' ' ∨ (ds.head? = some '\'' ∧ ds.tail.head? ≠ some '\'')) :
    singleWord (word.flatMap singleCode ++ ds) = (word, (word.flatMap singleCode).length) := by
  induction word with
  | nil =>
    rcases hds with hds | ⟨hds, htail⟩
    · obtain ⟨tail, rfl⟩ := head?_eq_some_iff.1 hds
      rfl
    · obtain ⟨tail, rfl⟩ := head?_eq_some_iff.1 hds
      cases tail with
      | nil => rfl
      | cons d tail =>
        have hd : d ≠ '\'' := by simpa using htail
        rw [flatMap_nil, nil_append, singleWord]
        · simp
        · rintro _ _ h
          exact hd (cons.inj h).1
  | cons c word ih =>
    obtain ⟨hc, hspace⟩ := hword c mem_cons_self
    have hrest := ih fun d hd => hword d (mem_cons_of_mem c hd)
    rw [flatMap_cons, append_assoc, singleCode]
    by_cases hquote : c = '\''
    · subst hquote
      show singleWord ('\'' :: '\'' :: (word.flatMap singleCode ++ ds)) = _
      rw [singleWord, hrest]
      simp
    · have hgap : isGap c = false := by
        rw [isGap_eq_of_isLineChar hc]
        simpa using hspace
      rw [if_neg (by simpa using hquote), singleton_append, singleWord]
      · simp [hquote, hgap, isBreak_of_isLineChar hc, hrest]
      · rintro _ h _
        exact absurd h hquote

theorem wordCode_single : WordCode (isLineChar ·) '\'' singleCode where
  quote_ne := by decide
  space := rfl
  stops c hc hspace ds := by
    rw [singleCode]
    split
    · exact stops_cons (by decide) (by decide) _
    · exact stops_cons hc hspace _
  line c hc := by
    rw [singleCode]
    split
    · exact all_eq_true.1 (by decide)
    · exact forall_mem_singleton.2 hc
  length c _ := by
    rw [singleCode]
    split <;> simp
  space_stops := by decide
  reads word ds hword hds := by
    rw [quotedWord?, if_pos (by decide), singleWord_append hword hds]

/-- Between double quotes, a character stands for itself or is written behind a backslash. -/
def IsEscape (code : Char → List Char) (c : Char) : Prop :=
  (code c = [c] ∧ isLineChar c ∧ c ≠ '"' ∧ c ≠ '\\') ∨
    ∃ e, code c = '\\' :: e ∧ (∀ d ∈ e, isLineChar d) ∧
      ∀ ds, escaped? (e ++ ds) = some (c, e.length) ∧ startsBreak (e ++ ds) = false

theorem isEscape_letter {code : Char → List Char} {c d : Char} (hcode : code c = ['\\', d]) (hd : isLineChar d = true)
    (hread : ∀ ds, escaped? (d :: ds) = some (c, 1) ∧ startsBreak (d :: ds) = false) : IsEscape code c :=
  .inr ⟨[d], hcode, forall_mem_singleton.2 hd, hread⟩

section Double

variable {p : Char → Prop} {code : Char → List Char} (hcode : ∀ c, p c → IsEscape code c)
include hcode

theorem doubleWord?_append {word ds : List Char} (hword : ∀ c ∈ word, p c ∧ c ≠ ' ')
    (hds : ds.head? = some ' ' ∨ ds.head? = some '"') {fuel : Nat} (hfuel : word.length ≤ fuel) :
    doubleWord? fuel (word.flatMap code ++ ds) = some (word, (word.flatMap code).length) := by
  induction word generalizing fuel with
  | nil =>
    cases fuel with
    | zero => rfl
    | succ fuel =>
      rcases hds with hds | hds <;> obtain ⟨tail, rfl⟩ := head?_eq_some_iff.1 hds <;> rfl
  | cons c word ih =>
    obtain ⟨hc, hspace⟩ := hword c mem_cons_self
    obtain ⟨fuel, rfl⟩ : ∃ f, fuel = f + 1 := ⟨fuel - 1, by simp at hfuel; omega⟩
    have hfuel' : word.length ≤ fuel := by
      simp at hfuel
      omega
    have hrest := ih (fun d hd => hword d (mem_cons_of_mem c hd)) hfuel'
    rw [flatMap_cons, append_assoc]
    rcases hcode c hc with ⟨hself, hline, hquote, hslash⟩ | ⟨e, he, -, hescape⟩
    · have hgap : isGap c = false := by
        rw [isGap_eq_of_isLineChar hline]
        simpa using hspace
      rw [hself, singleton_append, doubleWord?]
      · simp [hquote, hgap, isBreak_of_isLineChar hline, hrest]
      · exact hslash
    · obtain ⟨hread, hbreak⟩ := hescape (word.flatMap code ++ ds)
      rw [he, cons_append, doubleWord?, hbreak, Bool.and_false, hread]
      simp [hrest]
      omega

theorem wordCode_double (hspace : code ' ' = [' ']) : WordCode p '"' code where
  quote_ne := by decide
  space := hspace
  stops c hc hne ds := by
    rcases hcode c hc with ⟨h, hline, -⟩ | ⟨e, h, -⟩ <;> rw [h]
    · exact stops_cons hline hne _
    · exact stops_cons (by decide) (by decide) _
  line c hc := by
    rcases hcode c hc with ⟨h, hline, -⟩ | ⟨e, h, hline, -⟩ <;> rw [h]
    · exact forall_mem_singleton.2 hline
    · exact forall_mem_cons.2 ⟨by decide, hline⟩
  length c hc := by
    rcases hcode c hc with ⟨h, -⟩ | ⟨e, h, -⟩ <;> rw [h] <;> simp
  space_stops := by decide
  reads word ds hword hds := by
    have hfuel : word.length ≤ (word.flatMap code ++ ds).length := by
      refine Nat.le_trans (le_length_flatMap code fun c hc => ?_) (by simp)
      rcases hcode c (hword c hc).1 with ⟨h, -⟩ | ⟨e, h, -⟩ <;> rw [h] <;> simp
    rw [quotedWord?, if_neg (by decide)]
    exact doubleWord?_append hcode hword (hds.imp_right (·.1)) hfuel

end Double

end Cursor

end ServiceCompiler.Document
