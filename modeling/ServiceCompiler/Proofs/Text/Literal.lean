import Mathlib.Algebra.Group.Nat.Defs
import ServiceCompiler.Proofs.Text.Decimal
import ServiceCompiler.Proofs.Text.Octets

namespace ServiceCompiler.Text

open List

/-!
# Reading string literals

A literal between double quotes stands for octets.  A character stands for its UTF-8 octets, and an escape for one
octet or for the octets of a code point.

* `Literal.readFrom` — the rules, with every escape that the generated language has.
* `Literal.readFrom_quoted` — a quoted text is a literal, and it stands for the octets of the text.
* `newline_notMem_quoted` — it stays on its line.
-/

/-! ### Hexadecimal numbers -/

theorem digitValue?_digitChar {d : Nat} (h : d < 16) : digitValue? (Nat.digitChar d) = some d := by
  have hall : ∀ d : Fin 16, digitValue? (Nat.digitChar d.val) = some d.val := by decide
  exact hall ⟨d, h⟩

theorem addDigit_digitChar (n : Nat) {d : Nat} (h : d < 16) :
    addDigit 16 (some n) (Nat.digitChar d) = some (n * 16 + d) := by
  show (digitValue? (Nat.digitChar d)).bind _ = _
  rw [digitValue?_digitChar h]
  exact if_pos h

theorem foldl_toDigits (n : Nat) : (Nat.toDigits 16 n).foldl (addDigit 16) (some 0) = some n := by
  induction n using Nat.strongRecOn with
  | ind n ih =>
    by_cases hn : n < 16
    · rw [Nat.toDigits_of_lt_base hn, foldl_cons, addDigit_digitChar 0 hn, foldl_nil]
      simp
    · have hlt : n / 16 < n := by omega
      rw [Nat.toDigits_of_base_le (by decide) (by omega), foldl_append, ih _ hlt, foldl_cons,
        addDigit_digitChar _ (Nat.mod_lt n (by decide)), foldl_nil]
      congr 1
      omega

theorem foldl_replicate_zero (k : Nat) : (replicate k '0').foldl (addDigit 16) (some 0) = some 0 := by
  induction k with
  | zero => rfl
  | succ k ih => exact ih

/-- A number is as wide as it is written, when it fits. -/
theorem length_hex {width n : Nat} (hwidth : 0 < width) (hn : n < 16 ^ width) : (hex width n).length = width := by
  have hle : (Nat.toDigits 16 n).length ≤ width := (Nat.length_toDigits_le_iff (by decide) hwidth).2 hn
  show (replicate _ _ ++ _).length = _
  rw [length_append, length_replicate]
  omega

/-- **The digits of a number are read back.** -/
theorem natOf?_hex (width n : Nat) : natOf? 16 (hex width n) = some n := by
  have hne : (hex width n).isEmpty = false := by
    rw [isEmpty_eq_false_iff]
    exact append_ne_nil_of_right_ne_nil _ Nat.toDigits_ne_nil
  rw [natOf?, hne]
  show (hex width n).foldl (addDigit 16) (some 0) = _
  rw [hex, foldl_append, foldl_replicate_zero, foldl_toDigits]

theorem exists_digit_of_mem_toDigits {n : Nat} {c : Char} (hc : c ∈ Nat.toDigits 16 n) :
    ∃ d < 16, c = Nat.digitChar d := by
  induction n using Nat.strongRecOn with
  | ind n ih =>
    by_cases hn : n < 16
    · rw [Nat.toDigits_of_lt_base hn, mem_singleton] at hc
      exact ⟨n, hn, hc⟩
    · rw [Nat.toDigits_of_base_le (by decide) (by omega), mem_append, mem_singleton] at hc
      rcases hc with hc | hc
      · exact ih (n / 16) (by omega) hc
      · exact ⟨n % 16, Nat.mod_lt n (by decide), hc⟩

theorem newline_notMem_hex (width n : Nat) : '\n' ∉ hex width n := by
  intro h
  rcases mem_append.1 h with h | h
  · exact absurd (eq_of_mem_replicate h) (by decide)
  · obtain ⟨d, hd, hchar⟩ := exists_digit_of_mem_toDigits h
    have hvalue := digitValue?_digitChar hd
    rw [← hchar] at hvalue
    cases hvalue

/-! ### Octets -/

theorem Octets.ofString_append (s t : String) : Octets.ofString (s ++ t) = Octets.ofString s ++ Octets.ofString t := by
  rw [Octets.ofString, String.toList_append, flatMap_append]
  rfl

/-- The octets of a text are the bytes that it is kept in. -/
theorem Octets.ofString_eq_toByteArray (s : String) : Octets.ofString s = s.toByteArray.data.toList := by
  have hbytes : s.toByteArray = s.toList.utf8Encode := by
    rw [← String.toByteArray_ofList, String.ofList_toList]
  rw [hbytes, utf8Encode, data_toByteArray]
  rfl

/-- The octet of a line end belongs to no other character. -/
theorem newline_mem_utf8EncodeChar {c : Char} : (10 : UInt8) ∈ String.utf8EncodeChar c ↔ c = '\n' := by
  constructor
  · intro h
    rcases Octets.toNat_of_mem_utf8EncodeChar h with hsame | hlarge
    · exact Char.toNat_inj.1 hsame.symm
    · exact absurd hlarge (by decide)
  · rintro rfl
    decide

/-! ### The rules -/

namespace Literal

variable (c : Char)

/-- The escapes of one character and the characters they stand for. -/
def shortEscapes : List (Char × Char) :=
  [('a', '\x07'), ('b', '\x08'), ('f', '\x0c'), ('n', '\n'), ('r', '\r'), ('t', '\t'), ('v', '\x0b'),
   ('\\', '\\'), ('"', '"')]

/-- The number that the first `width` characters write. -/
def number? (base width : Nat) (cs : List Char) : Option Nat :=
  if width ≤ cs.length then natOf? base (cs.take width) else none

/-- The number as one octet. -/
def octet? (n : Nat) : Option Octets := if n < 256 then some [n.toUInt8] else none

/-- The octets of a code point; surrogates and numbers that are too large have none. -/
def codePoint? (n : Nat) : Option Octets :=
  if n.isValidChar then some (String.utf8EncodeChar (Char.ofNat n)) else none

/-- What follows a backslash: the octets it stands for and how many characters it takes. -/
def escape? (cs : List Char) : Option (Octets × Nat) :=
  match cs with
  | [] => none
  | c :: rest =>
    match shortEscapes.lookup c with
    | some d => some (String.utf8EncodeChar d, 1)
    | none =>
      if c = 'x' then ((number? 16 2 rest).bind octet?).map (·, 3)
      else if c = 'u' then ((number? 16 4 rest).bind codePoint?).map (·, 5)
      else if c = 'U' then ((number? 16 8 rest).bind codePoint?).map (·, 9)
      else ((number? 8 3 cs).bind octet?).map (·, 3)

/-- One more part in front of what is read: its octets and its size. -/
def after (octets : Octets) (size : Nat) (read : Octets × Nat) : Octets × Nat :=
  (octets ++ read.1, size + read.2)

/-- The octets of a literal behind its opening quote, and its size up to and including the closing one.  The first
    `skip` characters belong to an escape. -/
def readFrom : Nat → List Char → Option (Octets × Nat)
  | _, [] => none
  | skip + 1, _ :: cs => (readFrom skip cs).map (after [] 1)
  | 0, c :: cs =>
    if c = '"' then some ([], 1)
    else if c = '\n' then none
    else if c = '\\' then
      (escape? cs).bind fun e => (readFrom e.2 cs).map (after e.1 1)
    else (readFrom 0 cs).map (after (String.utf8EncodeChar c) 1)

/-! ### Escapes of the writer -/

theorem after_after (o p : Octets) (m n : Nat) (read : Octets × Nat) :
    after o m (after p n read) = after (o ++ p) (m + n) read := by
  simp only [after, append_assoc, Nat.add_assoc]

theorem readFrom_skip (body rest : List Char) :
    readFrom body.length (body ++ rest) = (readFrom 0 rest).map (after [] body.length) := by
  induction body with
  | nil =>
    have hid : after [] 0 = id := by
      funext read
      simp [after]
    rw [length_nil, nil_append, hid, Option.map_id, id]
  | cons c body ih =>
    rw [length_cons, cons_append, readFrom, ih, Option.map_map]
    congr 1
    funext read
    rw [Function.comp_apply, after_after, append_nil, Nat.add_comm]

theorem readFrom_escape {body rest : List Char} {octets : Octets}
    (h : escape? (body ++ rest) = some (octets, body.length)) :
    readFrom 0 ('\\' :: body ++ rest) = (readFrom 0 rest).map (after octets ('\\' :: body).length) := by
  rw [cons_append, readFrom, if_neg (by decide), if_neg (by decide), if_pos rfl, h]
  show (readFrom body.length (body ++ rest)).map _ = _
  rw [readFrom_skip, Option.map_map]
  congr 1
  funext read
  rw [Function.comp_apply, after_after, append_nil, length_cons, Nat.add_comm]

theorem number?_hex {width n : Nat} (hwidth : 0 < width) (hn : n < 16 ^ width) (rest : List Char) :
    number? 16 width (hex width n ++ rest) = some n := by
  have hlength := length_hex hwidth hn
  have htake : (hex width n ++ rest).take width = hex width n := take_left' hlength
  rw [number?, if_pos (by rw [length_append, hlength]; omega), htake, natOf?_hex]

theorem codePoint?_toNat : codePoint? c.toNat = some (String.utf8EncodeChar c) := by
  have hvalid : c.toNat.isValidChar := c.valid
  rw [codePoint?, if_pos hvalid, Char.ofNat_toNat]

/-- An escape by number, with two digits for an octet and four or eight for a code point. -/
theorem escape?_hex (rest : List Char) :
    (c.toNat < 0x80 → escape? ('x' :: hex 2 c.toNat ++ rest) =
      some (String.utf8EncodeChar c, ('x' :: hex 2 c.toNat).length)) ∧
    (c.toNat < 0x10000 → escape? ('u' :: hex 4 c.toNat ++ rest) =
      some (String.utf8EncodeChar c, ('u' :: hex 4 c.toNat).length)) ∧
    escape? ('U' :: hex 8 c.toNat ++ rest) =
      some (String.utf8EncodeChar c, ('U' :: hex 8 c.toNat).length) := by
  refine ⟨fun hlow => ?_, fun hlow => ?_, ?_⟩
  · have hencode : String.utf8EncodeChar c = [c.toNat.toUInt8] := if_pos (Nat.le_of_lt_succ hlow)
    show ((number? 16 2 (hex 2 c.toNat ++ rest)).bind octet?).map (·, 3) = _
    rw [number?_hex (by decide) (by omega), length_cons, length_hex (by decide) (by omega), hencode]
    show (octet? c.toNat).map (·, 3) = _
    rw [octet?, if_pos (by omega)]
    rfl
  · show ((number? 16 4 (hex 4 c.toNat ++ rest)).bind codePoint?).map (·, 5) = _
    rw [number?_hex (by decide) (by omega), length_cons, length_hex (by decide) (by omega)]
    show (codePoint? c.toNat).map (·, 5) = _
    rw [codePoint?_toNat]
    rfl
  · have hlow : c.toNat < 16 ^ 8 := by
      have hvalid : c.toNat < 0xd800 ∨ 0xdfff < c.toNat ∧ c.toNat < 0x110000 := c.valid
      omega
    show ((number? 16 8 (hex 8 c.toNat ++ rest)).bind codePoint?).map (·, 9) = _
    rw [number?_hex (by decide) hlow, length_cons, length_hex (by decide) hlow]
    show (codePoint? c.toNat).map (·, 9) = _
    rw [codePoint?_toNat]
    rfl

/-- The escape of a character is a backslash and what is read as that character. -/
theorem exists_escapeCode :
    ∃ body, escapeCode c = '\\' :: body ∧ '\n' ∉ body ∧
      ∀ rest, escape? (body ++ rest) = some (String.utf8EncodeChar c, body.length) := by
  -- The short escapes are told apart by the number of their character.
  have hshort : ∀ {n : Nat} {d e : Char}, c.toNat = n → e.toNat = n → shortEscapes.lookup d = some e →
      ∀ rest, escape? (d :: rest) = some (String.utf8EncodeChar c, 1) := by
    intro n d e hc he hlookup rest
    obtain rfl : c = e := Char.toNat_inj.1 (hc.trans he.symm)
    rw [escape?, hlookup]
  rw [escapeCode]
  split; · exact ⟨['a'], rfl, by decide, hshort ‹_› rfl rfl⟩
  split; · exact ⟨['b'], rfl, by decide, hshort ‹_› rfl rfl⟩
  split; · exact ⟨['f'], rfl, by decide, hshort ‹_› rfl rfl⟩
  split; · exact ⟨['n'], rfl, by decide, hshort ‹_› rfl rfl⟩
  split; · exact ⟨['r'], rfl, by decide, hshort ‹_› rfl rfl⟩
  split; · exact ⟨['t'], rfl, by decide, hshort ‹_› rfl rfl⟩
  split; · exact ⟨['v'], rfl, by decide, hshort ‹_› rfl rfl⟩
  split
  case isTrue hlow => exact ⟨_, rfl, by simp [newline_notMem_hex], fun rest => (escape?_hex c rest).1 (by omega)⟩
  split
  case isTrue hlow => exact ⟨_, rfl, by simp [newline_notMem_hex], fun rest => (escape?_hex c rest).2.1 hlow⟩
  exact ⟨_, rfl, by simp [newline_notMem_hex], fun rest => (escape?_hex c rest).2.2⟩

/-! ### Quoted texts -/

/-- What stands for a character between double quotes: itself, or a backslash and an escape. -/
theorem quoteChar_cases :
    (quoteChar '"' c = [c] ∧ c ≠ '"' ∧ c ≠ '\\' ∧ c ≠ '\n') ∨
      ∃ body, quoteChar '"' c = '\\' :: body ∧ '\n' ∉ body ∧
        ∀ rest, escape? (body ++ rest) = some (String.utf8EncodeChar c, body.length) := by
  rw [quoteChar]
  by_cases hmark : c = '"' ∨ c = '\\'
  · right
    rw [if_pos hmark]
    refine ⟨[c], rfl, ?_, ?_⟩
    · rcases hmark with rfl | rfl <;> decide
    · intro rest
      rcases hmark with rfl | rfl <;> rfl
  · rw [if_neg hmark]
    by_cases hprint : isPrintable c
    · rw [if_pos hprint]
      refine .inl ⟨rfl, fun h => hmark (.inl h), fun h => hmark (.inr h), ?_⟩
      rintro rfl
      exact absurd hprint (by decide)
    · rw [if_neg hprint]
      exact .inr (exists_escapeCode c)

/-- A character between the quotes is read back as its octets. -/
theorem readFrom_quoteChar (rest : List Char) :
    readFrom 0 (quoteChar '"' c ++ rest) =
      (readFrom 0 rest).map (after (String.utf8EncodeChar c) (quoteChar '"' c).length) := by
  rcases quoteChar_cases c with ⟨hself, hquote, hslash, hline⟩ | ⟨body, hbody, -, hescape⟩
  · rw [hself, singleton_append, readFrom, if_neg hquote, if_neg hline, if_neg hslash]
    rfl
  · rw [hbody]
    exact readFrom_escape (hescape rest)

/-- **A quoted text is a literal for the octets of the text.** -/
theorem readFrom_quoted (cs rest : List Char) :
    readFrom 0 (cs.flatMap (quoteChar '"') ++ '"' :: rest) =
      some (cs.flatMap String.utf8EncodeChar, (cs.flatMap (quoteChar '"')).length + 1) := by
  induction cs with
  | nil => rfl
  | cons c cs ih =>
    rw [flatMap_cons, append_assoc, readFrom_quoteChar, ih, flatMap_cons, length_append, Nat.add_assoc]
    rfl

theorem newline_notMem_quoteChar : '\n' ∉ quoteChar '"' c := by
  rcases quoteChar_cases c with ⟨hself, -, -, hline⟩ | ⟨body, hbody, hline, -⟩
  · rw [hself, mem_singleton]
    exact Ne.symm hline
  · rw [hbody, mem_cons, not_or]
    exact ⟨by decide, hline⟩

end Literal

/-- A quoted text stays on its line. -/
theorem newline_notMem_quoted (s : String) : '\n' ∉ (quoted s).toList := by
  rw [quoted, String.toList_ofList, quoteWith]
  simp only [cons_append, mem_cons, mem_append, mem_flatMap, not_mem_nil, or_false, not_or]
  refine ⟨by decide, ?_, by decide⟩
  rintro ⟨c, -, hc⟩
  exact Literal.newline_notMem_quoteChar c hc

/-- So do quoted octets. -/
theorem Octets.newline_notMem_quoted (octets : Octets) : '\n' ∉ octets.quoted.toList := by
  rw [Octets.quoted, String.toList_ofList]
  simp only [cons_append, mem_cons, mem_append, mem_flatMap, not_mem_nil, or_false, not_or]
  refine ⟨by decide, ?_, by decide⟩
  rintro ⟨piece, -, hpiece⟩
  cases piece with
  | char c => exact Literal.newline_notMem_quoteChar c hpiece
  | stray b =>
    rcases mem_cons.1 hpiece with h | h
    · exact absurd h (by decide)
    · rcases mem_cons.1 h with h | h
      · exact absurd h (by decide)
      · exact newline_notMem_hex 2 b.toNat h

end ServiceCompiler.Text
