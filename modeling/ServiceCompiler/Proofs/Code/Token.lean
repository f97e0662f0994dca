import ServiceCompiler.Code.Source
import ServiceCompiler.Proofs.Text.Literal
import ServiceCompiler.Proofs.Text.Pieces

namespace ServiceCompiler.Code

open Text
open List hiding splitOn

/-!
# Reading generated code

Generated code is read line by line, and a line as words, string literals and marks.

* `codeLines` and `tokens` — the reading.
* `codeLines_joined` — lines that were joined are read one by one.
* `tokens_word`, `tokens_quoted`, `tokens_mark`, `tokens_blank` — one token at a time.
* `IsLine` — texts without a line end, which what is written from such texts is again.
-/

/-! ### Lines -/

variable {lines : List String} {s : String} {entries : List Entry} {c : Char}

def codeLines (text : String) : List (List Char) := splitOn '\n' text.toList

/-- Texts that are joined by line ends keep their lines. -/
theorem codeLines_intercalate (h : lines ≠ []) : codeLines ("\n".intercalate lines) = lines.flatMap codeLines := by
  induction lines with
  | nil => exact absurd rfl h
  | cons line rest ih =>
    cases rest with
    | nil =>
      rw [String.intercalate_singleton, flatMap_cons, flatMap_nil, append_nil]
    | cons next rest =>
      rw [String.intercalate_cons_cons, flatMap_cons, ← ih (cons_ne_nil next rest), codeLines,
        String.toList_append, String.toList_append, append_assoc]
      exact splitOn_append_cons '\n' _ _

/-- A text that is made of lines. -/
theorem codeLines_joined (h : lines ≠ []) :
    codeLines ("\n".intercalate lines ++ "\n") = lines.flatMap codeLines ++ [[]] := by
  rw [← codeLines_intercalate h, codeLines, String.toList_append]
  exact splitOn_append_cons '\n' _ []

/-! ### Texts of one line -/

/-- A text without a line end. -/
def IsLine (s : String) : Prop := '\n' ∉ s.toList

/-- Line ends are found among the bytes of a text, which need not be decoded for it. -/
theorem isLine_iff_bytes : (10 : UInt8) ∉ s.toByteArray.data.toList ↔ IsLine s := by
  rw [← Octets.ofString_eq_toByteArray, IsLine, not_iff_not, Octets.ofString, mem_flatMap]
  simp only [newline_mem_utf8EncodeChar, exists_eq_right]

instance (s : String) : Decidable (IsLine s) := decidable_of_iff _ isLine_iff_bytes

namespace IsLine

theorem append {t : String} (hs : IsLine s) (ht : IsLine t) : IsLine (s ++ t) := by
  rw [IsLine, String.toList_append, mem_append, not_or]
  exact ⟨hs, ht⟩

theorem quoted (s : String) : IsLine (quoted s) := newline_notMem_quoted s

theorem quotedOctets (octets : Octets) : IsLine octets.quoted := octets.newline_notMem_quoted

theorem codeLines (hs : IsLine s) : codeLines s = [s.toList] := splitOn_of_notMem hs

theorem intercalate {separator : String} (hseparator : IsLine separator) (h : ∀ line ∈ lines, IsLine line) :
    IsLine (separator.intercalate lines) := by
  induction lines with
  | nil => exact (by decide : IsLine "")
  | cons line rest ih =>
    obtain ⟨hline, hrest⟩ := forall_mem_cons.1 h
    cases rest with
    | nil => rwa [String.intercalate_singleton]
    | cons next rest =>
      rw [String.intercalate_cons_cons]
      exact (hline.append hseparator).append (ih hrest)

theorem call {function : String} {arguments : List String} (hfunction : IsLine function)
    (h : ∀ argument ∈ arguments, IsLine argument) : IsLine (call function arguments) :=
  ((hfunction.append (by decide)).append (intercalate (by decide) h)).append (by decide)

theorem indentLine {line : String} (h : IsLine line) : IsLine (indentLine line) := by
  rw [Code.indentLine]
  split
  · decide
  · exact append (by decide) h

end IsLine

/-- Lines further in are still lines. -/
theorem isLine_of_mem_indent (h : ∀ line ∈ lines, IsLine line) : ∀ line ∈ indent lines, IsLine line := by
  intro line hline
  obtain ⟨inner, hinner, rfl⟩ := mem_map.1 hline
  exact (h inner hinner).indentLine

theorem isLine_of_mem_block {head : String} {body : List String} (hhead : IsLine head)
    (h : ∀ line ∈ body, IsLine line) : ∀ line ∈ block head body, IsLine line := by
  intro line hline
  simp only [block, blockWith, cons_append, mem_cons, mem_append, not_mem_nil, or_false] at hline
  rcases hline with rfl | hline | rfl
  · exact hhead.append (by decide)
  · exact isLine_of_mem_indent h line hline
  · decide

/-- The columns of a keyed literal hold its entries. -/
theorem mem_of_mem_columnsFrom {sizes : List Nat} {current column : List Entry} {entry : Entry}
    (hcolumn : column ∈ columnsFrom sizes current entries) (hentry : entry ∈ column) :
    entry ∈ current ∨ entry ∈ entries := by
  induction entries generalizing sizes current with
  | nil =>
    rw [columnsFrom, mem_singleton] at hcolumn
    exact .inl (mem_reverse.1 (hcolumn ▸ hentry))
  | cons first rest ih =>
    simp only [columnsFrom] at hcolumn
    split at hcolumn
    · rcases mem_cons.1 hcolumn with rfl | hcolumn
      · exact .inl (mem_reverse.1 hentry)
      · rcases ih hcolumn with h | h
        · exact .inr (mem_cons.2 (.inl (mem_singleton.1 h)))
        · exact .inr (mem_cons_of_mem first h)
    · rcases ih hcolumn with h | h
      · rcases mem_cons.1 h with rfl | h
        · exact .inr mem_cons_self
        · exact .inl h
      · exact .inr (mem_cons_of_mem first h)

theorem isLine_of_mem_alignColumn (h : ∀ entry ∈ entries, IsLine entry.1 ∧ IsLine entry.2) :
    ∀ line ∈ alignColumn entries, IsLine line := by
  intro line hline
  obtain ⟨entry, hentry, rfl⟩ := mem_map.1 hline
  obtain ⟨hkey, hvalue⟩ := h entry hentry
  refine (((hkey.append (by decide)).append ?_).append hvalue).append (by decide)
  rw [IsLine, String.toList_ofList]
  intro hmem
  exact absurd (eq_of_mem_replicate hmem) (by decide)

theorem isLine_of_mem_keyed {head : String} (hhead : IsLine head)
    (h : ∀ entry ∈ entries, IsLine entry.1 ∧ IsLine entry.2) : ∀ line ∈ keyed head entries, IsLine line := by
  have hbraced : ∀ {inner : String}, IsLine inner → IsLine (braced head inner) := fun hinner =>
    ((hhead.append (by decide)).append hinner).append (by decide)
  cases entries with
  | nil => exact forall_mem_singleton.2 (hbraced (by decide))
  | cons first rest =>
    cases rest with
    | nil =>
      obtain ⟨hkey, hvalue⟩ := h _ mem_cons_self
      exact forall_mem_singleton.2 (hbraced ((hkey.append (by decide)).append hvalue))
    | cons second rest =>
      refine forall_mem_append.2 ⟨forall_mem_cons.2 ⟨hhead.append (by decide), ?_⟩, by simp; decide⟩
      refine isLine_of_mem_indent fun line hline => ?_
      obtain ⟨column, hcolumn, hline⟩ := mem_flatMap.1 hline
      refine isLine_of_mem_alignColumn (fun entry hentry => h entry ?_) line hline
      rcases mem_of_mem_columnsFrom hcolumn hentry with hnone | hentry
      · cases hnone
      · exact (mergeSort_perm _ _).mem_iff.1 hentry

/-! ### Tokens -/

/-- A token of generated code. -/
inductive Token where
  | word (cs : List Char)
  /-- A string literal, by the octets it stands for. -/
  | text (octets : Octets)
  | mark (c : Char)
  deriving DecidableEq, Repr

/-- Whether the character only separates tokens. -/
def isBlank (c : Char) : Bool := c == ' ' || c == '\t'

/-- The token that starts with a character, and how many of the characters behind belong to it.  A literal that is
    not well formed is none: its quote is a mark. -/
def firstToken (c : Char) (cs : List Char) : Token × Nat :=
  if isWordChar c then (.word (c :: cs.takeWhile isWordChar), (cs.takeWhile isWordChar).length)
  else if c = '"' then
    match Literal.readFrom 0 cs with
    | some (octets, size) => (.text octets, size)
    | none => (.mark c, 0)
  else (.mark c, 0)

/-- The tokens of a line, the first `skip` characters of which belong to one that was read. -/
def tokensFrom : Nat → List Char → List Token
  | _, [] => []
  | skip + 1, _ :: cs => tokensFrom skip cs
  | 0, c :: cs =>
    if isBlank c then tokensFrom 0 cs
    else (firstToken c cs).1 :: tokensFrom (firstToken c cs).2 cs

/-- The tokens of a line. -/
def tokens (cs : List Char) : List Token := tokensFrom 0 cs

theorem tokensFrom_append (body rest : List Char) : tokensFrom body.length (body ++ rest) = tokens rest := by
  induction body with
  | nil => rfl
  | cons c body ih => exact ih

/-- A token that takes a part of the line. -/
theorem tokens_of_firstToken {body rest : List Char} {t : Token} (hblank : isBlank c = false)
    (h : firstToken c (body ++ rest) = (t, body.length)) : tokens (c :: body ++ rest) = t :: tokens rest := by
  rw [cons_append, tokens, tokensFrom, if_neg (by simp [hblank]), h]
  show t :: tokensFrom body.length (body ++ rest) = _
  rw [tokensFrom_append]

theorem isBlank_of_isWordChar (h : isWordChar c) : isBlank c = false := by
  rw [isBlank, Bool.or_eq_false_iff, beq_eq_false_iff_ne, beq_eq_false_iff_ne]
  constructor
  · rintro rfl
    exact absurd h (by decide)
  · rintro rfl
    exact absurd h (by decide)

theorem tokens_blank (h : isBlank c) (cs : List Char) : tokens (c :: cs) = tokens cs := by
  rw [tokens, tokensFrom, if_pos h]
  rfl

/-- A word ends where the next character is none of a word. -/
theorem tokens_word {word rest : List Char} (hne : word ≠ []) (hword : word.all isWordChar = true)
    (hrest : ∀ c ∈ rest.head?, isWordChar c = false) : tokens (word ++ rest) = .word word :: tokens rest := by
  cases word with
  | nil => exact absurd rfl hne
  | cons c body =>
    obtain ⟨hc, hbody⟩ := forall_mem_cons.1 (all_eq_true.1 hword)
    have htake : (body ++ rest).takeWhile isWordChar = body := by
      rw [takeWhile_append_of_pos hbody]
      cases rest with
      | nil => simp
      | cons d rest => rw [takeWhile_cons_of_neg (by simp [hrest d rfl]), append_nil]
    refine tokens_of_firstToken (isBlank_of_isWordChar hc) ?_
    rw [firstToken, if_pos hc, htake]

/-- A word with a blank behind it. -/
theorem tokens_word_blank {word : List Char} (hne : word ≠ []) (hword : word.all isWordChar = true)
    (rest : List Char) : tokens (word ++ ' ' :: rest) = .word word :: tokens rest := by
  have hend : ∀ c ∈ (' ' :: rest).head?, isWordChar c = false := by
    rintro c ⟨rfl⟩
    decide
  rw [tokens_word hne hword hend, tokens_blank rfl]

theorem tokens_mark (hblank : isBlank c = false) (hword : isWordChar c = false) (hquote : c ≠ '"')
    (cs : List Char) : tokens (c :: cs) = .mark c :: tokens cs := by
  have hfirst : firstToken c ([] ++ cs) = (.mark c, ([] : List Char).length) := by
    rw [firstToken, if_neg (by simp [hword]), if_neg hquote]
    rfl
  exact tokens_of_firstToken hblank hfirst

/-- **A quoted text is one token**, for the octets of the text. -/
theorem tokens_quoted (s : String) (rest : List Char) :
    tokens ((quoted s).toList ++ rest) = .text (Octets.ofString s) :: tokens rest := by
  have hchars : (quoted s).toList ++ rest =
      '"' :: (s.toList.flatMap (Text.quoteChar '"') ++ ['"']) ++ rest := by
    rw [quoted, String.toList_ofList, quoteWith]
    rfl
  rw [hchars]
  refine tokens_of_firstToken (by decide) ?_
  rw [firstToken, if_neg (by decide), if_pos rfl, append_assoc, singleton_append,
    Literal.readFrom_quoted, length_append]
  rfl

end ServiceCompiler.Code
