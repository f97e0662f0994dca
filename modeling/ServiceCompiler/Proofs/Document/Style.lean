import ServiceCompiler.Document.Json
import ServiceCompiler.Proofs.Document.Standing
import ServiceCompiler.Proofs.Naming.Valid

namespace ServiceCompiler.Document

open List Text

/-!
# Styles of texts

A text is written plain only where it can be read plain, and otherwise between quotes, in a code that the
reader of quoted words undoes.

* `IsPlainScalar` — what a plain scalar needs to be read as a whole on its line.
* `isPlainScalar_of_allowsPlain`, `isPlainScalar_of_alnum` — texts and words that have it.
* `WrittenAs` — the ways in which a text is written; `writtenAs_textChars`, `writtenAs_jsonText` — the texts
  that are written in one of them.
-/

variable {cs : List Char}

open Cursor

/-! ### Plain scalars -/

/-- A text that is read as a plain scalar on its line. -/
structure IsPlainScalar (cs : List Char) : Prop extends IsPlainText cs where
  ne_nil : cs ≠ []
  head_space : cs.head? ≠ some ' '
  head_hash : cs.head? ≠ some '#'
  head_percent : cs.head? ≠ some '%'
  starts : ∀ tail, Lexer.startsPlain false (cs ++ '\n' :: tail) = true
  dash : ∀ rest tail, cs = '-' :: rest → startsGap (rest ++ tail) = false

open Text (isAlphanumeric)

section Alphanumeric

variable {c : Char} (h : isAlphanumeric c)
include h

theorem ne_of_isAlphanumeric {d : Char} (hd : isAlphanumeric d = false) : c ≠ d := by
  rintro rfl
  rw [h] at hd
  exact absurd hd (by decide)

theorem isPrintable_of_isAlphanumeric : isPrintable c = true := by
  simp only [isAlphanumeric, isAsciiLetter, isDigit, Bool.or_eq_true, decide_eq_true_eq,
    Char.le_def, UInt32.le_iff_toNat_le] at h
  simp only [isPrintable, Bool.and_eq_true, decide_eq_true_eq]
  have hnat : c.toNat = c.val.toNat := rfl
  have hchars : 'a'.val.toNat = 97 ∧ 'z'.val.toNat = 122 ∧ 'A'.val.toNat = 65 ∧ 'Z'.val.toNat = 90 ∧
    '0'.val.toNat = 48 ∧ '9'.val.toNat = 57 := by decide
  omega

theorem isLineChar_of_isAlphanumeric : isLineChar c = true :=
  isLineChar_of_isPrintable (isPrintable_of_isAlphanumeric h)

theorem stops_of_isAlphanumeric (cs : List Char) : Stops (c :: cs) :=
  stops_cons (isLineChar_of_isAlphanumeric h) (ne_of_isAlphanumeric h (by decide)) cs

theorem not_contains_of_isAlphanumeric (marks : List Char)
    (hmarks : (marks.all fun d => !isAlphanumeric d) = true) : marks.contains c = false := by
  rw [contains_eq_mem, decide_eq_false_iff_not]
  intro hmem
  have hc : (!isAlphanumeric c) = true := all_eq_true.1 hmarks c hmem
  rw [h] at hc
  exact absurd hc (by decide)

/-- A letter or digit starts a plain scalar. -/
theorem startsPlain_of_isAlphanumeric (inFlow : Bool) (cs : List Char) :
    Lexer.startsPlain inFlow (c :: cs) = true := by
  have hstop := stops_of_isAlphanumeric h cs c rfl
  have hmark := not_contains_of_isAlphanumeric h "-?:,[]\x7b\x7d#&*!|>'\"%@\x60".toList (by decide)
  rw [Lexer.startsPlain, hstop.1, hstop.2, hmark]
  rfl

theorem isWordChar_of_isAlphanumeric (inFlow : Bool) : Cursor.isWordChar inFlow c = true := by
  have hstop := stops_of_isAlphanumeric h [] c rfl
  have hmark := not_contains_of_isAlphanumeric h ",?[]\x7b\x7d".toList (by decide)
  rw [Cursor.isWordChar, hstop.1, hstop.2, hmark, Bool.and_false]
  rfl

end Alphanumeric

/-- A word of letters and digits ends where no plain scalar goes on. -/
theorem plainWord_alphanumeric {inFlow : Bool} {word ds : List Char} (h : ∀ c ∈ word, isAlphanumeric c)
    (hds : plainWord inFlow ds = []) : plainWord inFlow (word ++ ds) = word := by
  refine plainWord_append (fun c hc => isWordChar_of_isAlphanumeric (h c hc) inFlow) ?_ hds
  rintro a b rfl
  exact absurd rfl (ne_of_isAlphanumeric (h ':' (by simp)) (by decide))

theorem notMem_newline_of_alphanumeric {word : List Char} (h : ∀ c ∈ word, isAlphanumeric c) : '\n' ∉ word :=
  notMem_newline_of_line fun c hc => isLineChar_of_isAlphanumeric (h c hc)

section Words

variable {word ds : List Char} {column : Int} (hne : word ≠ []) (hword : ∀ c ∈ word, isAlphanumeric c)
include hne hword

/-- A word of letters and digits begins no comment and no mark of a document. -/
theorem head_of_alphanumeric (ds : List Char) (m : Mark) :
    (⟨word ++ ds, m⟩ : Cursor).atDocumentMark = false ∧ (⟨word ++ ds, m⟩ : Cursor).at_ '#' = false := by
  obtain ⟨c, cs, rfl⟩ := exists_cons_of_ne_nil hne
  have hc : ∀ d, isAlphanumeric d = false → c ≠ d := fun d => ne_of_isAlphanumeric (hword c mem_cons_self)
  exact ⟨atDocumentMark_cons (hc '-' (by decide)) (hc '.' (by decide)), at_cons (hc '#' (by decide))⟩

/-- A plain word in front of a mark that ends it. -/
theorem plain?_word {inFlow : Bool} (hend : plainWord inFlow ds = []) (hds : startsGap ds = false) (m : Mark) :
    (⟨word ++ ds, m⟩ : Cursor).plain? inFlow column = some (word, .spaces [], ⟨ds, m.beyond word⟩) := by
  obtain ⟨hmark, hhash⟩ := head_of_alphanumeric hne hword ds m
  rw [plain?, plainFrom_step hmark hhash hne (plainWord_alphanumeric hword hend)
    (notMem_newline_of_alphanumeric hword), hds]
  simp

/-- A plain word between brackets that ends with its line, in front of a closing bracket. -/
theorem plain?_flowLine {b : Char} (hb : b = ']' ∨ b = '\x7d') (k : Nat) (m : Mark) :
    (⟨word ++ ('\n' :: replicate k ' ' ++ b :: ds), m⟩ : Cursor).plain? true column =
      some (word, .breaks ['\n'] [], ⟨b :: ds, m.beyond (word ++ '\n' :: replicate k ' ')⟩) := by
  have hstops : Stops (b :: ds) := by
    rcases hb with rfl | rfl <;> exact stops_cons (by decide) (by decide) _
  -- Behind the line the bracket ends the scalar, so that a second round takes nothing.
  have hround : ∀ fuel taken m, plainFrom true column (fuel + 1) taken (.breaks ['\n'] []) ⟨b :: ds, m⟩ =
      some (taken, .breaks ['\n'] [], ⟨b :: ds, m⟩) := by
    intro fuel taken m
    have hmark : (⟨b :: ds, m⟩ : Cursor).atDocumentMark = false := by
      rcases hb with rfl | rfl <;> exact atDocumentMark_cons (by decide) (by decide)
    have hhash : (⟨b :: ds, m⟩ : Cursor).at_ '#' = false := by
      rcases hb with rfl | rfl <;> exact at_cons (by decide)
    have hend : plainWord true (b :: ds) = [] := by rcases hb with rfl | rfl <;> rfl
    rw [plainFrom, hmark, hhash]
    simp only [hend, length_nil, skip_zero, hstops.startsGap]
    simp
  obtain ⟨hmark, hhash⟩ := head_of_alphanumeric hne hword ('\n' :: replicate k ' ' ++ b :: ds) m
  obtain ⟨c, w, rfl⟩ := exists_cons_of_ne_nil hne
  have hfuel : (c :: w ++ ('\n' :: replicate k ' ' ++ b :: ds)).length =
      (w ++ ('\n' :: replicate k ' ' ++ b :: ds)).length + 1 := rfl
  rw [plain?, plainFrom_step hmark hhash hne (plainWord_alphanumeric hword rfl)
    (notMem_newline_of_alphanumeric hword), Gap.read?_line hstops, ← Mark.beyond_append]
  simp only [Option.bind_some, hfuel, hround]
  simp [startsGap, isBreak]

end Words

theorem hasMappingColon_of_notMem (h : ':' ∉ cs) : hasMappingColon cs = false := by
  induction cs with
  | nil => rfl
  | cons c cs ih =>
    obtain ⟨hc, hcs⟩ : ':' ≠ c ∧ ':' ∉ cs := by simpa using h
    rw [hasMappingColon, beq_eq_false_iff_ne.2 (Ne.symm hc), ih hcs]
    rfl

theorem hasPair_of_notMem {p : Char → Bool} {d : Char} (h : d ∉ cs) : hasPair p (· == d) cs = false := by
  induction cs with
  | nil => rfl
  | cons c cs ih =>
    obtain ⟨-, hcs⟩ : d ≠ c ∧ d ∉ cs := by simpa using h
    cases cs with
    | nil => rfl
    | cons e cs =>
      have he : e ≠ d := fun heq => hcs (heq ▸ mem_cons_self)
      rw [hasPair, beq_eq_false_iff_ne.2 he, ih hcs, Bool.and_false]
      rfl

/-- Words of letters and digits can be read plain. -/
theorem isPlainScalar_of_alphanumeric (hne : cs ≠ []) (h : ∀ c ∈ cs, isAlphanumeric c) : IsPlainScalar cs := by
  have hnot : ∀ d, isAlphanumeric d = false → d ∉ cs := fun d hd hmem =>
    ne_of_isAlphanumeric (h d hmem) hd rfl
  have hhead : ∀ d, isAlphanumeric d = false → cs.head? ≠ some d := fun d hd hmem =>
    hnot d hd (mem_of_mem_head? hmem)
  exact {
    line := fun c hc => isLineChar_of_isAlphanumeric (h c hc)
    colon := hasMappingColon_of_notMem (hnot ':' (by decide))
    comment := hasPair_of_notMem (hnot '#' (by decide))
    getLast := fun hlast => hnot ' ' (by decide) (mem_of_getLast? hlast)
    ne_nil := hne
    head_space := hhead ' ' (by decide)
    head_hash := hhead '#' (by decide)
    head_percent := hhead '%' (by decide)
    starts := by
      intro tail
      obtain ⟨c, cs, rfl⟩ := exists_cons_of_ne_nil hne
      exact startsPlain_of_isAlphanumeric (h c mem_cons_self) false _
    dash := by
      rintro rest tail rfl
      exact absurd rfl (hhead '-' (by decide)) }

/-- What stands behind the first character of a text, when it is neither nothing nor a gap. -/
theorem startsGap_of_not_alone {rest : List Char} (hline : ∀ c ∈ rest, isLineChar c)
    (h : (rest.isEmpty || (rest.head?.map isGap).getD false) = false) (tail : List Char) :
    startsGap (rest ++ tail) = false := by
  cases rest with
  | nil => exact absurd h (by decide)
  | cons c rest =>
    have hgap : isGap c = false := by simpa using h
    show (isGap c || isBreak c) = false
    rw [hgap, isBreak_of_isLineChar (hline c mem_cons_self)]
    rfl

/-- **What may be written plain can be read plain.** -/
theorem isPlainScalar_of_allowsPlain (hne : cs ≠ []) (hline : ∀ c ∈ cs, isLineChar c)
    (h : allowsPlain cs = true) : IsPlainScalar cs := by
  obtain ⟨c, rest, rfl⟩ := exists_cons_of_ne_nil hne
  simp only [allowsPlain, looksOtherwise, Bool.not_eq_true', Bool.or_eq_false_iff] at h
  obtain ⟨⟨⟨⟨⟨hhead, hlast⟩, -⟩, -⟩, -⟩, ⟨hindicator, hcolon⟩, hcomment⟩ := h
  simp only [startsIndicator, Bool.or_eq_false_iff] at hindicator
  obtain ⟨-, hmark, halone⟩ := hindicator
  have hc : isLineChar c = true := hline c mem_cons_self
  have hspace : c ≠ ' ' := by
    rintro rfl
    exact absurd hhead (by simp)
  have hrest : c = '?' ∨ c = '-' ∨ c = ':' → ∀ tail, startsGap (rest ++ tail) = false := by
    intro hcases tail
    refine startsGap_of_not_alone (fun d hd => hline d (mem_cons_of_mem _ hd)) ?_ tail
    rcases hcases with rfl | rfl | rfl
    · simpa using halone
    · simpa using halone
    · exact (by simpa [hasMappingColon] using hcolon : _ ∧ _).1
  have hhead' : ∀ d ∈ "#,[]\x7b\x7d&*!|>'\"%@\x60".toList, c ≠ d := by
    rintro d hd rfl
    rw [contains_eq_mem, decide_eq_false_iff_not] at hmark
    exact hmark hd
  exact {
    line := hline
    colon := hcolon
    comment := hcomment
    getLast := by
      intro hspace
      rw [hspace] at hlast
      exact absurd hlast (by decide)
    ne_nil := hne
    head_space := by simpa using hspace
    head_hash := by simpa using hhead' '#' (by decide)
    head_percent := by simpa using hhead' '%' (by decide)
    starts := by
      intro tail
      have hstop := stops_cons hc hspace [] c rfl
      rw [cons_append, Lexer.startsPlain, hstop.1, hstop.2]
      -- The marks that start no text in a block are those that start none elsewhere, and these three.
      by_cases hmem : c = '?' ∨ c = '-' ∨ c = ':'
      · have hgap := hrest hmem ('\n' :: tail)
        have hnext : (((rest ++ '\n' :: tail).head?.map isGap).getD false) = false := by
          cases hcs : rest ++ '\n' :: tail with
          | nil => rfl
          | cons d ds =>
            rw [hcs] at hgap
            exact (Bool.or_eq_false_iff.1 hgap).1
        rcases hmem with rfl | rfl | rfl
        · rw [hgap]; rfl
        · rw [hnext]; rfl
        · rw [hgap]; rfl
      · have hother : "-?:,[]\x7b\x7d#&*!|>'\"%@\x60".toList.contains c = false := by
          rw [contains_eq_mem, decide_eq_false_iff_not]
          intro hin
          have hsplit : "-?:,[]\x7b\x7d#&*!|>'\"%@\x60".toList ⊆
              ['?', '-', ':'] ++ "#,[]\x7b\x7d&*!|>'\"%@\x60".toList := by decide
          rcases mem_append.1 (hsplit hin) with h | h
          · exact hmem (by simpa using h)
          · exact hhead' c h rfl
        rw [hother]
        rfl
    dash := by
      rintro rest' tail heq
      obtain ⟨rfl, rfl⟩ := cons.inj heq
      exact hrest (.inr (.inl rfl)) tail }

/-! ### Quoted texts -/

theorem singleChars_of_line (h : ∀ c ∈ cs, isLineChar c) (indent : Nat) :
    singleChars indent false cs = cs.flatMap singleCode := by
  induction cs with
  | nil => rfl
  | cons c cs ih =>
    obtain ⟨hc, hcs⟩ := forall_mem_cons.1 h
    rw [singleChars, isBreak_of_isLineChar hc, if_neg (by decide), Bool.false_and, Bool.false_and,
      if_neg (by decide), ih hcs]
    rfl

/-- A printable character between double quotes. -/
def doubleCode (c : Char) : List Char := if c == '"' || c == '\\' then ['\\', c] else [c]

theorem isEscape_doubleCode {c : Char} (h : isLineChar c) : IsEscape doubleCode c := by
  by_cases hquote : c = '"'
  · subst hquote
    exact isEscape_letter rfl (by decide) fun ds => ⟨rfl, rfl⟩
  by_cases hslash : c = '\\'
  · subst hslash
    exact isEscape_letter rfl (by decide) fun ds => ⟨rfl, rfl⟩
  exact .inl ⟨by simp [doubleCode, hquote, hslash], h, hquote, hslash⟩

theorem doubleQuoted_of_printable (h : ∀ c ∈ cs, isPrintable c) :
    doubleQuoted cs = '"' :: (cs.flatMap doubleCode ++ ['"']) := by
  have hmarked : (cs.head? == some byteOrderMark) = false := by
    rw [beq_eq_false_iff_ne]
    exact fun hhead => absurd (h _ (mem_of_mem_head? hhead)) (by decide)
  have hcode : (cs.flatMap fun c => if cs.head? == some byteOrderMark || !isShown c || isBreak c || c == '"'
      || c == '\\' then '\\' :: escapeCode c else [c]) = cs.flatMap doubleCode := by
    refine List.flatMap_congr fun c hc => ?_
    have hprint := h c hc
    rw [hmarked, isShown_of_isPrintable hprint, isBreak_of_isLineChar (isLineChar_of_isPrintable hprint)]
    by_cases hquote : c = '"'
    · subst hquote
      rfl
    by_cases hslash : c = '\\'
    · subst hslash
      rfl
    simp [doubleCode, hquote, hslash]
  rw [doubleQuoted]
  show '"' :: (cs.flatMap _) ++ ['"'] = _
  rw [hcode]
  rfl

/-! ### Texts of the flow form -/

/-- Whether the flow form keeps the character: it stands for itself on a line, or is escaped. -/
def isKept (c : Char) : Bool := c.toNat < 0x20 || (isReadable c && c.toNat != 0x85)

theorem isKept_of_isPrintable {c : Char} (h : isPrintable c) : isKept c = true := by
  have hreadable := isReadable_of_isLineChar (isLineChar_of_isPrintable h)
  have hrange : 0x20 ≤ c.toNat ∧ c.toNat ≤ 0x7e := by simpa [isPrintable] using h
  have hne : c.toNat ≠ 0x85 := by omega
  simp [isKept, hreadable, hne]

/-- The characters that are escaped by their number. -/
def numbered : List Char := (0x3c :: 0x3e :: 0x26 :: 0x2028 :: 0x2029 :: range 0x20).map Char.ofNat

theorem isEscape_numbered {code : Char → List Char} {c : Char} (h : c ∈ numbered)
    (hcode : code c = '\\' :: 'u' :: hex 4 c.toNat) : IsEscape code c := by
  have hall : (numbered.all fun c => (hex 4 c.toNat).length = 4 ∧ (hex 4 c.toNat).all isLineChar = true ∧
      natOf? 16 (hex 4 c.toNat) = some c.toNat) = true := by decide +kernel
  obtain ⟨hlength, hline, hnumber⟩ := of_decide_eq_true (all_eq_true.1 hall c h)
  have hvalid : c.toNat.isValidChar := c.valid
  refine .inr ⟨'u' :: hex 4 c.toNat, hcode,
    forall_mem_cons.2 ⟨by decide, all_eq_true.1 hline⟩, fun ds => ⟨?_, rfl⟩⟩
  have hread : codedChar? 4 (hex 4 c.toNat ++ ds) = some c := by
    simp [codedChar?, take_left' hlength, hlength, hnumber, hvalid]
  show (codedChar? 4 (hex 4 c.toNat ++ ds)).map (fun d => (d, 5)) = _
  rw [hread, length_cons, hlength]
  rfl

/-- **What the flow form keeps can be read back.** -/
theorem isEscape_escapeJson {c : Char} (h : isKept c) : IsEscape escapeJson c := by
  have hcode : escapeJson c = _ := escapeJson.eq_1 c
  split_ifs at hcode with hquote hslash hline hreturn htab hback hfeed hnumbered
  · subst hquote
    exact isEscape_letter rfl (by decide) fun ds => ⟨rfl, rfl⟩
  · subst hslash
    exact isEscape_letter rfl (by decide) fun ds => ⟨rfl, rfl⟩
  · subst hline
    exact isEscape_letter rfl (by decide) fun ds => ⟨rfl, rfl⟩
  · subst hreturn
    exact isEscape_letter rfl (by decide) fun ds => ⟨rfl, rfl⟩
  · subst htab
    exact isEscape_letter rfl (by decide) fun ds => ⟨rfl, rfl⟩
  · obtain rfl : c = Char.ofNat 8 := by rw [← hback, Char.ofNat_toNat]
    exact isEscape_letter rfl (by decide) fun ds => ⟨rfl, rfl⟩
  · obtain rfl : c = Char.ofNat 12 := by rw [← hfeed, Char.ofNat_toNat]
    exact isEscape_letter rfl (by decide) fun ds => ⟨rfl, rfl⟩
  · refine isEscape_numbered (mem_map.2 ⟨c.toNat, ?_, Char.ofNat_toNat c⟩) hcode
    rcases hnumbered with hlow | rfl | rfl | rfl | hnumber | hnumber
    · simp [hlow]
    · decide
    · decide
    · decide
    · simp [hnumber]
    · simp [hnumber]
  · simp only [not_or] at hnumbered
    obtain ⟨hlow, -, -, -, hnotLine, hnotParagraph⟩ := hnumbered
    have hreadable : isReadable c = true ∧ c.toNat ≠ 0x85 := by simpa [isKept, hlow] using h
    have hbreak : isBreak c = false := by
      simp [isBreak, isSeparator, hline, hreturn, hreadable.2, hnotLine, hnotParagraph]
    exact .inl ⟨hcode, by simp [isLineChar, hreadable.1, htab, hbreak], hquote, hslash⟩

theorem wordCode_json : WordCode (isKept ·) '"' escapeJson := wordCode_double (fun _ => isEscape_escapeJson) rfl

/-! ### Written texts -/

/-- How a text stands in a document: plain, or between quotes. -/
inductive WrittenAs : Bool → List Char → List Char → Prop
  | plain {cs : List Char} : IsPlainScalar cs → WrittenAs true cs cs
  | quoted {p : Char → Prop} {quote : Char} {code : Char → List Char} {cs : List Char} :
    quote = '\'' ∨ quote = '"' → WordCode p quote code → (∀ c ∈ cs, p c) →
    WrittenAs false cs (quote :: (cs.flatMap code ++ [quote]))

section

variable {p : Char → Prop} {quote : Char} {code : Char → List Char} (hquote : quote = '\'' ∨ quote = '"')
  (h : WordCode p quote code) (hcs : ∀ c ∈ cs, p c)
include hquote h hcs

theorem line_quoted 
     :
    ∀ c ∈ quote :: (cs.flatMap code ++ [quote]), isLineChar c := by
  have hline : isLineChar quote = true := by rcases hquote with rfl | rfl <;> decide
  exact forall_mem_cons.2 ⟨hline, forall_mem_append.2
    ⟨h.line_flatMap hcs, forall_mem_singleton.2 hline⟩⟩

/-- A text between quotes is read as a whole. -/
theorem quoted?_written 
     {ds : List Char}
    (hds : ds.head? ≠ some '\'') (m : Mark) :
    (⟨quote :: (cs.flatMap code ++ [quote]) ++ ds, m⟩ : Cursor).quoted? quote =
      some (cs, ⟨ds, m.beyond (quote :: (cs.flatMap code ++ [quote]))⟩) := by
  have hlength : (quote :: (cs.flatMap code ++ [quote])).length = (cs.flatMap code).length + 2 := by
    rw [length_cons, length_append, length_singleton]
  rw [Mark.beyond_eq_ahead _ (notMem_newline_of_line (line_quoted hquote h hcs)), hlength, cons_append, append_assoc]
  exact h.quoted?_encoded hcs hds

end

/-- What a text is written as stands on a line and begins a token. -/
theorem WrittenAs.line {isPlain : Bool} {written : List Char} (h : WrittenAs isPlain cs written) :
    (∀ c ∈ written, isLineChar c) ∧ ∃ c rest, written = c :: rest ∧ c ≠ ' ' ∧ c ≠ '#' := by
  cases h with
  | plain h =>
    obtain ⟨c, rest, rfl⟩ := exists_cons_of_ne_nil h.ne_nil
    exact ⟨h.line, c, rest, rfl, by simpa using h.head_space, by simpa using h.head_hash⟩
  | quoted hquote hcode hcs =>
    exact ⟨line_quoted hquote hcode hcs, _, _, rfl, by rcases hquote with rfl | rfl <;> decide⟩

theorem begins_cons {c : Char} (hc : isLineChar c) (hspace : c ≠ ' ') (hhash : c ≠ '#') (cs : List Char) :
    Begins (c :: cs) :=
  ⟨stops_cons hc hspace cs, by simpa using hhash⟩

theorem begins_of_line (h : ∀ c ∈ cs, isLineChar c)
    (hhead : ∃ c rest, cs = c :: rest ∧ c ≠ ' ' ∧ c ≠ '#') (tail : List Char) : Begins (cs ++ tail) := by
  obtain ⟨c, rest, rfl, hspace, hhash⟩ := hhead
  exact begins_cons (h c mem_cons_self) hspace hhash _

theorem writtenAs_jsonText {s : String} (h : ∀ c ∈ s.toList, isKept c) : WrittenAs false s.toList (jsonText s) :=
  .quoted (.inr rfl) wordCode_json h

/-- Whether a text is written plain. -/
def isPlainStyle (s : String) : Bool := styleOf s == .plain

/-- **Printable texts are written in a style that reads back.** -/
theorem writtenAs_textChars {s : String} (h : ∀ c ∈ s.toList, isPrintable c) (step indent : Nat) :
    WrittenAs (isPlainStyle s) s.toList (textChars step indent s) := by
  have hline : ∀ c ∈ s.toList, isLineChar c := fun c hc => isLineChar_of_isPrintable (h c hc)
  have hbreak : s.toList.contains '\n' = false := by simpa using notMem_newline_of_line hline
  have hdouble : WrittenAs false s.toList (doubleQuoted s.toList) := by
    rw [doubleQuoted_of_printable h]
    exact .quoted (.inr rfl) (wordCode_double (fun _ => isEscape_doubleCode) rfl) hline
  rw [isPlainStyle, textChars, styleOf, hbreak]
  cases hreads : readsAsText s with
  | false => exact hdouble
  | true =>
    have hne : s.toList ≠ [] := by
      intro hnil
      rw [String.toList_eq_nil_iff.1 hnil] at hreads
      exact absurd hreads (by decide)
    cases hplain : allowsPlain s.toList with
    | true => exact .plain (isPlainScalar_of_allowsPlain hne hline hplain)
    | false =>
      cases allowsSingle s.toList with
      | false => exact hdouble
      | true =>
        show WrittenAs false s.toList (singleQuoted indent s.toList)
        rw [singleQuoted, singleChars_of_line hline]
        exact .quoted (.inl rfl) wordCode_single hline

theorem readsAsText_of_isPlainStyle {s : String} (h : isPlainStyle s = true) : readsAsText s = true := by
  cases hreads : readsAsText s with
  | true => rfl
  | false =>
    simp only [isPlainStyle, styleOf, hreads, Bool.false_eq_true, if_false] at h
    split_ifs at h <;> exact absurd h (by decide)

/-! ### Documents that read back -/

/-- Whether a word is a key in both formats: not too long, and a text where it stands plain. -/
def isKey (key : String) : Bool :=
  !key.toList.isEmpty && key.toList.all isAlphanumeric && decide (key.toList.length ≤ 1000)
    && (Scalar.ofPlain key).tag == strTag

/-- Whether a document may be an item: only members of records are empty lists or records. -/
def isFilled : Document → Bool
  | .list items => !items.isEmpty
  | .record members => !members.isEmpty
  | .missingList => false
  | _ => true

/-- Documents of some depth that can be read back: texts are made of some characters, numbers are those of
    a port. -/
def Writable (p : Char → Prop) : Nat → Document → Prop
  | 0, _ => False
  | _ + 1, .flag _ => True
  | _ + 1, .number n => 0 ≤ n ∧ n < Number.signedLimit
  | _ + 1, .text s => ∀ c ∈ s.toList, p c
  | _ + 1, .missingList => True
  | depth + 1, .list items => ∀ d ∈ items, isFilled d = true ∧ Writable p depth d
  | depth + 1, .record members => ∀ m ∈ members, isKey m.1 = true ∧ Writable p depth m.2

section Keys

variable {key : String} (h : isKey key = true)
include h

theorem key_ne_nil : key.toList ≠ [] := by
  rw [isKey, Bool.and_eq_true, Bool.and_eq_true, Bool.and_eq_true] at h
  simpa using h.1.1.1

theorem isAlphanumeric_of_isKey : ∀ c ∈ key.toList, isAlphanumeric c := by
  rw [isKey, Bool.and_eq_true, Bool.and_eq_true, Bool.and_eq_true] at h
  exact all_eq_true.1 h.1.1.2

theorem length_le_of_isKey : key.toList.length ≤ 1000 := by
  rw [isKey, Bool.and_eq_true, Bool.and_eq_true, Bool.and_eq_true] at h
  exact of_decide_eq_true h.1.2

theorem tag_of_isKey : (Scalar.ofPlain key).tag = strTag := by
  rw [isKey, Bool.and_eq_true, Bool.and_eq_true, Bool.and_eq_true] at h
  exact beq_iff_eq.1 h.2

theorem isLineChar_of_isKey : ∀ c ∈ key.toList, isLineChar c := fun c hc =>
  isLineChar_of_isAlphanumeric (isAlphanumeric_of_isKey h c hc)

theorem isKept_of_isKey : ∀ c ∈ key.toList, isKept c := fun c hc =>
  isKept_of_isPrintable (isPrintable_of_isAlphanumeric (isAlphanumeric_of_isKey h c hc))

theorem begins_key (tail : List Char) : Begins (key.toList ++ tail) := by
  obtain ⟨c, cs, hcs⟩ := exists_cons_of_ne_nil (key_ne_nil h)
  have hc : isAlphanumeric c = true := isAlphanumeric_of_isKey h c (by rw [hcs]; exact mem_cons_self)
  rw [hcs]
  exact ⟨stops_of_isAlphanumeric hc _, fun heq => ne_of_isAlphanumeric hc (by decide) (Option.some.inj heq)⟩

end Keys

end ServiceCompiler.Document
