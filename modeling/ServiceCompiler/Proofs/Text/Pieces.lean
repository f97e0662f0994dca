import Mathlib.Data.List.Induction
import Mathlib.Data.List.TakeDrop
import Mathlib.Data.List.TakeWhile
import ServiceCompiler.Text.Blank

namespace ServiceCompiler.Text

open List

/-!
# Pieces of a text

What the pieces of a text look like when it is trimmed, cut at a character or cut into words.

* `isTrimmed_trim` — a trimmed text has no blank at its ends.
* `of_mem_splitOn`, `eq_append_of_cutAt?` — a piece between marks is free of the mark, and so is what
  stands before the first one.
* `splitOn_eq_list_splitOn` — cutting at a character is what the library calls it, so that its laws about
  joining apply; `length_splitOn` counts the pieces.
* `of_mem_words` — a word is not empty and free of blanks; `words_intercalate` — words that are joined by spaces
  are found again.
-/

variable {cs : List Char} {c mark : Char} {as word : List Char}

/-! ### Beginnings and parts -/

theorem hasLead_iff {lead : List Char} : hasLead lead cs ↔ lead <+: cs := by
  rw [hasLead, Option.isSome_iff_exists]
  simp only [stripLead?_eq_some_iff, eq_comm (a := cs)]
  rfl

theorem contains_iff {mark : List Char} : contains mark cs ↔ mark <:+: cs := by
  induction cs with
  | nil =>
    rw [contains, cut?]
    split <;> simp_all
  | cons c cs ih =>
    rw [infix_cons_iff, ← ih, ← hasLead_iff, contains, cut?, hasLead]
    split
    · rename_i hlead
      simp [hlead]
    · rename_i hlead
      simp [hlead, contains]

/-! ### Trimming -/

/-- No blank stands at the two ends of the text. -/
def IsTrimmed (cs : List Char) : Prop :=
  (∀ c, cs.head? = some c → isBlank c = false) ∧ (∀ c, cs.getLast? = some c → isBlank c = false)

theorem isPrefix_trimTail (cs : List Char) : trimTail cs <+: cs := by
  have h := reverse_prefix.2 (dropWhile_suffix (l := cs.reverse) isBlank)
  rwa [reverse_reverse] at h

theorem mem_of_mem_trim (h : c ∈ trim cs) : c ∈ cs :=
  (dropWhile_sublist _).subset ((isPrefix_trimTail _).subset h)

/-- What is left behind the blanks at the beginning starts with no blank. -/
theorem head_trimLead (h : (trimLead cs).head? = some c) : isBlank c = false := by
  have hnot := head?_dropWhile_not isBlank cs
  rw [trimLead] at h
  rw [h] at hnot
  exact hnot

theorem isTrimmed_trim (cs : List Char) : IsTrimmed (trim cs) := by
  constructor
  · intro c hc
    -- The trimmed text begins as the text behind its leading blanks does.
    obtain ⟨rest, hrest⟩ := isPrefix_trimTail (trimLead cs)
    have hhead : (trimLead cs).head? = some c := by
      rw [trim] at hc
      rw [← hrest, head?_append, hc]
      rfl
    exact head_trimLead hhead
  · intro c hc
    rw [trim, trimTail, getLast?_reverse] at hc
    exact head_trimLead hc

/-- Nothing is taken off the end of a text that ends in something else than a blank. -/
theorem trimTail_of_last (hlast : cs.getLast? = some c) (hc : isBlank c = false) : trimTail cs = cs := by
  obtain ⟨front, rfl⟩ := getLast?_eq_some_iff.1 hlast
  simp [trimTail, hc]

/-- Blanks are taken off the end of what follows a character that is none. -/
theorem trimTail_append_cons (hc : isBlank c = false) (as bs : List Char) :
    trimTail (as ++ c :: bs) = as ++ c :: trimTail bs := by
  have hfront : (c :: as.reverse).dropWhile isBlank = c :: as.reverse := dropWhile_cons_of_neg (by simp [hc])
  have hreverse : (as ++ c :: bs).reverse = bs.reverse ++ c :: as.reverse := by simp
  rw [trimTail, trimTail, hreverse, dropWhile_append, hfront]
  split
  · rename_i hempty
    simp [isEmpty_iff.1 hempty]
  · simp

theorem trim_of_isTrimmed (h : IsTrimmed cs) : trim cs = cs := by
  have hlead : trimLead cs = cs := by
    cases cs with
    | nil => rfl
    | cons c cs => exact dropWhile_cons_of_neg (by simp [h.1 c rfl])
  rw [trim, hlead]
  cases hlast : cs.getLast? with
  | none =>
    rw [getLast?_eq_none_iff.1 hlast]
    rfl
  | some c => exact trimTail_of_last hlast (h.2 c hlast)

/-- Of a trimmed text with more behind it, blanks are taken off the end only. -/
theorem trim_append_cons (hne : as ≠ []) (has : IsTrimmed as) (hc : isBlank c = false) (bs : List Char) :
    trim (as ++ c :: bs) = as ++ c :: trimTail bs := by
  obtain ⟨d, ds, rfl⟩ := exists_cons_of_ne_nil hne
  have hlead : trimLead (d :: ds ++ c :: bs) = d :: ds ++ c :: bs :=
    dropWhile_cons_of_neg (by simp [has.1 d rfl])
  rw [trim, hlead, trimTail_append_cons hc]

/-- What begins with no blank is not trimmed away. -/
theorem trim_eq_nil_iff (h : ∀ c, cs.head? = some c → isBlank c = false) : trim cs = [] ↔ cs = [] := by
  refine ⟨fun hnil => ?_, fun hnil => by rw [hnil]; rfl⟩
  cases cs with
  | nil => rfl
  | cons c cs =>
    have hlead : trimLead (c :: cs) = c :: cs := dropWhile_cons_of_neg (by simp [h c rfl])
    have htail : trimTail (c :: cs) = c :: trimTail cs := trimTail_append_cons (h c rfl) [] cs
    rw [trim, hlead, htail] at hnil
    cases hnil

/-- A trimmed text begins with the first character that is no blank. -/
theorem head?_trim (cs : List Char) : (trim cs).head? = cs.find? (!isBlank ·) := by
  have hfirst : cs.find? (!isBlank ·) = (trimLead cs).head? := by
    rw [find?_eq_head?_dropWhile_not]
    simp only [Bool.not_not]
    rfl
  rw [hfirst, trim]
  cases hlead : trimLead cs with
  | nil => rfl
  | cons c rest =>
    have hc : isBlank c = false := head_trimLead (by rw [hlead, head?_cons])
    have htail : trimTail (c :: rest) = c :: trimTail rest := trimTail_append_cons hc [] rest
    rw [htail, head?_cons, head?_cons]

/-- Nothing is taken off a text without blanks. -/
theorem isTrimmed_of_forall (h : ∀ c ∈ cs, isBlank c = false) : IsTrimmed cs :=
  ⟨fun c hc => h c (mem_of_mem_head? hc), fun c hc => h c (mem_of_getLast? hc)⟩

theorem not_isBlank_of_isWordChar (h : isWordChar c) : isBlank c = false := by
  have hrange : 48 ≤ c.toNat ∧ c.toNat ≤ 122 := by
    simp only [isWordChar, isAsciiLetter, isDigit, Bool.or_eq_true, decide_eq_true_eq, beq_iff_eq, Char.le_def,
      UInt32.le_iff_toNat_le] at h
    rcases h with ((⟨hlow, hhigh⟩ | ⟨hlow, hhigh⟩) | ⟨hlow, hhigh⟩) | rfl
    · exact ⟨Nat.le_trans (by decide) hlow, hhigh⟩
    · exact ⟨Nat.le_trans (by decide) hlow, Nat.le_trans hhigh (by decide)⟩
    · exact ⟨hlow, Nat.le_trans hhigh (by decide)⟩
    · decide
  simp only [isBlank, Bool.or_eq_false_iff, Bool.and_eq_false_iff, decide_eq_false_iff_not, beq_eq_false_iff_ne]
  omega

theorem trim_blank_cons (hc : isBlank c) (cs : List Char) : trim (c :: cs) = trim cs := by
  rw [trim, trim, trimLead, trimLead, dropWhile_cons_of_pos hc]

/-! ### Cutting at a character -/

/-- A piece holds only characters of the text, and not the mark. -/
theorem of_mem_splitOn {piece : List Char} (h : piece ∈ splitOn mark cs) : ∀ c ∈ piece, c ∈ cs ∧ c ≠ mark := by
  induction cs generalizing piece with
  | nil =>
    rw [splitOn, mem_singleton] at h
    simp [h]
  | cons d cs ih =>
    intro c hc
    rw [splitOn] at h
    split at h
    · rcases mem_cons.1 h with rfl | h
      · simp at hc
      · exact ⟨mem_cons_of_mem d (ih h c hc).1, (ih h c hc).2⟩
    · rename_i hd
      split at h
      · rename_i hnil
        exact absurd hnil (splitOn_ne_nil mark cs)
      · rename_i first pieces heq
        rcases mem_cons.1 h with rfl | h
        · rcases mem_cons.1 hc with rfl | hc
          · exact ⟨mem_cons_self, hd⟩
          · have := ih (heq ▸ mem_cons_self) c hc
            exact ⟨mem_cons_of_mem d this.1, this.2⟩
        · have := ih (heq ▸ mem_cons_of_mem first h) c hc
          exact ⟨mem_cons_of_mem d this.1, this.2⟩

/-- What is no mark is in one of the pieces. -/
theorem exists_mem_splitOn (hc : c ∈ cs) (hne : c ≠ mark) : ∃ piece ∈ splitOn mark cs, c ∈ piece := by
  induction cs with
  | nil => cases hc
  | cons d cs ih =>
    rw [splitOn]
    split
    · rename_i hd
      rcases mem_cons.1 hc with rfl | hc
      · exact absurd hd hne
      · obtain ⟨piece, hpiece, hmem⟩ := ih hc
        exact ⟨piece, mem_cons_of_mem _ hpiece, hmem⟩
    · obtain ⟨first, rest, hsplit⟩ := exists_cons_of_ne_nil (splitOn_ne_nil mark cs)
      rw [hsplit] at ih ⊢
      rcases mem_cons.1 hc with rfl | hc
      · exact ⟨_, mem_cons_self, mem_cons_self⟩
      · obtain ⟨piece, hpiece, hmem⟩ := ih hc
        rcases mem_cons.1 hpiece with rfl | hpiece
        · exact ⟨_, mem_cons_self, mem_cons_of_mem d hmem⟩
        · exact ⟨piece, mem_cons_of_mem _ hpiece, hmem⟩

/-- Cutting at a character is that of the library. -/
theorem splitOn_eq_list_splitOn (mark : Char) (cs : List Char) : splitOn mark cs = cs.splitOn mark := by
  induction cs with
  | nil => simp [splitOn]
  | cons c cs ih =>
    rw [splitOn, splitOn_cons_eq_if_modifyHead, ih]
    by_cases hc : c = mark
    · simp [hc]
    · cases hpieces : cs.splitOn mark with
      | nil => exact absurd hpieces (List.splitOn_ne_nil mark cs)
      | cons piece pieces => simp [hc]

/-- A text is cut at a mark in its middle, and its two sides as if they stood alone. -/
theorem splitOn_append_cons (mark : Char) (as bs : List Char) :
    splitOn mark (as ++ mark :: bs) = splitOn mark as ++ splitOn mark bs := by
  simp only [splitOn_eq_list_splitOn]
  exact splitOn_append_cons_self as bs

theorem splitOn_of_notMem (h : mark ∉ cs) : splitOn mark cs = [cs] := by
  induction cs with
  | nil => rfl
  | cons c cs ih =>
    rw [mem_cons, not_or] at h
    rw [splitOn, if_neg (Ne.symm h.1), ih h.2]

/-- A part of the text between two marks is one of its pieces. -/
theorem mem_splitOn_of_infix (as piece bs : List Char)
    (h : as ++ mark :: (piece ++ mark :: bs) <:+: cs) (hpiece : mark ∉ piece) : piece ∈ splitOn mark cs := by
  obtain ⟨front, back, rfl⟩ := h
  have hregroup : front ++ (as ++ mark :: (piece ++ mark :: bs)) ++ back =
      (front ++ as) ++ mark :: (piece ++ mark :: (bs ++ back)) := by simp
  rw [hregroup, splitOn_append_cons, splitOn_append_cons, splitOn_of_notMem hpiece]
  simp

/-- There is one piece more than there are marks. -/
theorem length_splitOn (mark : Char) (cs : List Char) : (splitOn mark cs).length = 1 + cs.count mark := by
  induction cs with
  | nil => rfl
  | cons c cs ih =>
    rw [splitOn]
    by_cases hc : c = mark
    · rw [if_pos hc, length_cons, ih, hc, count_cons_self]
      omega
    · rw [if_neg hc, count_cons_of_ne (by simpa using hc), ← ih]
      cases hpieces : splitOn mark cs with
      | nil => exact absurd hpieces (splitOn_ne_nil mark cs)
      | cons piece pieces => rfl

/-- A cut at the first mark gives back the text, and the mark does not stand before it. -/
theorem eq_append_of_cutAt? {before after : List Char}
    (h : cutAt? mark cs = some (before, after)) : cs = before ++ mark :: after ∧ mark ∉ before := by
  rw [cutAt?, span_eq_takeWhile_dropWhile] at h
  split at h
  · simp at h
  · rename_i b m a heq
    obtain ⟨rfl, rfl⟩ : b = before ∧ a = after := by simpa using h
    obtain ⟨hb, ha⟩ : cs.takeWhile (· != mark) = b ∧ cs.dropWhile (· != mark) = m :: a := by
      simpa using heq
    have hm : m = mark := by
      have hnot := head?_dropWhile_not (· != mark) cs
      rw [ha] at hnot
      simpa using hnot
    refine ⟨?_, ?_⟩
    · rw [← hm, ← hb, ← ha, takeWhile_append_dropWhile]
    · intro hmem
      have := mem_takeWhile_imp (hb ▸ hmem)
      simp at this

/-- Nothing stands before the mark exactly if the text begins with it. -/
theorem fst_eq_nil_iff_of_cutAt? {parts : List Char × List Char}
    (h : cutAt? mark cs = some parts) : parts.1 = [] ↔ cs.head? = some mark := by
  obtain ⟨heq, hmark⟩ := eq_append_of_cutAt? h
  rw [heq]
  cases hbefore : parts.1 with
  | nil => simp
  | cons c before =>
    rw [hbefore] at hmark
    have hne : c ≠ mark := fun hc => hmark (hc ▸ mem_cons_self)
    simp [hne]

/-- The first occurrence of a mark is the one that none precedes. -/
theorem cutAt?_of_notMem (h : mark ∉ as) (bs : List Char) : cutAt? mark (as ++ mark :: bs) = some (as, bs) := by
  have hall : ∀ c ∈ as, (c != mark) = true := by
    intro c hc
    rw [bne_iff_ne]
    rintro rfl
    exact h hc
  rw [cutAt?, span_eq_takeWhile_dropWhile, takeWhile_append_of_pos hall, dropWhile_append_of_pos hall]
  simp

/-- The last occurrence of a mark is the one that none follows. -/
theorem cutLast?_of_notMem {bs : List Char} (h : mark ∉ bs) : cutLast? mark (as ++ mark :: bs) = some (as, bs) := by
  have hall : ∀ c ∈ bs.reverse, (c != mark) = true := by
    intro c hc
    rw [bne_iff_ne]
    rintro rfl
    exact h (mem_reverse.1 hc)
  have hreverse : (as ++ mark :: bs).reverse = bs.reverse ++ mark :: as.reverse := by simp
  rw [cutLast?, hreverse, span_eq_takeWhile_dropWhile, takeWhile_append_of_pos hall, dropWhile_append_of_pos hall]
  simp

/-- Where there is no cut, there is no mark. -/
theorem mark_notMem_of_cutAt? (h : cutAt? mark cs = none) : mark ∉ cs := by
  rw [cutAt?, span_eq_takeWhile_dropWhile] at h
  split at h
  · rename_i b heq
    obtain ⟨-, hdrop⟩ := Prod.mk.inj heq
    intro hmem
    have := dropWhile_eq_nil_iff.1 hdrop mark hmem
    simp at this
  · simp at h

/-! ### Words -/

/-- A run of a longer text is a run of the rest, or it begins with the new character. -/
theorem mem_runs_cons {p : Char → Bool} {d : Char} (h : word ∈ runs p (d :: cs)) :
    word ∈ runs p cs ∨ p d ∧ ∃ w, word = d :: w ∧ (w = [] ∨ w ∈ runs p cs) := by
  -- The equations of `runs` are split by its inner match, so it is opened as a whole.
  rw [runs.eq_def] at h
  dsimp only at h
  split at h
  · rename_i hd
    split at h
    · rename_i first others heq
      rw [heq]
      split at h
      · rcases mem_cons.1 h with rfl | h
        · exact .inr ⟨hd, first, rfl, .inr mem_cons_self⟩
        · exact .inl (mem_cons_of_mem first h)
      · rcases mem_cons.1 h with rfl | h
        · exact .inr ⟨hd, [], rfl, .inl rfl⟩
        · exact .inl h
    · rcases mem_cons.1 h with rfl | h
      · exact .inr ⟨hd, [], rfl, .inl rfl⟩
      · exact .inl h
  · exact .inl h

/-- A run is not empty, and all its characters are in the class and in the text. -/
theorem of_mem_runs {p : Char → Bool} (h : word ∈ runs p cs) : word ≠ [] ∧ ∀ c ∈ word, p c ∧ c ∈ cs := by
  induction cs generalizing word with
  | nil => simp [runs] at h
  | cons d cs ih =>
    have lift : ∀ w ∈ runs p cs, ∀ c ∈ w, p c ∧ c ∈ d :: cs := fun w hw c hc =>
      ⟨((ih hw).2 c hc).1, mem_cons_of_mem d ((ih hw).2 c hc).2⟩
    rcases mem_runs_cons h with h | ⟨hd, w, rfl, hw⟩
    · exact ⟨(ih h).1, lift word h⟩
    · refine ⟨cons_ne_nil d w, ?_⟩
      intro c hc
      rcases mem_cons.1 hc with rfl | hc
      · exact ⟨hd, mem_cons_self⟩
      · rcases hw with rfl | hw
        · simp at hc
        · exact lift w hw c hc

/-- The runs of a class are what stands between the characters outside of it, as far as there is something. -/
theorem runs_eq_filter_splitOnP (p : Char → Bool) (cs : List Char) :
    runs p cs = (cs.splitOnP (!p ·)).filter (!·.isEmpty) := by
  induction cs with
  | nil => rfl
  | cons c cs ih =>
    rw [runs.eq_def, splitOnP_cons_eq_if_modifyHead]
    dsimp only
    by_cases hc : p c
    · -- What the run of `c` is joined with depends on the character behind it.
      cases cs with
      | nil => simp [hc, runs, splitOnP_nil]
      | cons d ds =>
        rw [ih, splitOnP_cons_eq_if_modifyHead]
        by_cases hd : p d
        · obtain ⟨first, others, hsplit⟩ := exists_cons_of_ne_nil (splitOnP_ne_nil (!p ·) ds)
          simp [hc, hd, hsplit]
        · cases hruns : (ds.splitOnP (!p ·)).filter (!·.isEmpty) with
          | nil => simp [hc, hd, hruns]
          | cons word words => simp [hc, hd, hruns]
    · simp [hc, ih]

theorem words_eq_nil_iff : words cs = [] ↔ ∀ c ∈ cs, isBlank c := by
  rw [words]
  induction cs with
  | nil => simp [runs]
  | cons c cs ih =>
    rw [runs.eq_def, forall_mem_cons, ← ih]
    dsimp only
    cases hc : isBlank c with
    | false =>
      rw [if_pos (by simp)]
      split
      · split <;> simp
      · simp
    | true => simp

/-- A word is not empty and holds no blank. -/
theorem of_mem_words (h : word ∈ words cs) : word ≠ [] ∧ ∀ c ∈ word, isBlank c = false := by
  have hrun := of_mem_runs h
  exact ⟨hrun.1, fun c hc => by simpa using (hrun.2 c hc).1⟩

/-- No word reaches over a blank. -/
theorem words_append_cons (hc : isBlank c) (as bs : List Char) : words (as ++ c :: bs) = words as ++ words bs := by
  simp only [words, runs_eq_filter_splitOnP]
  rw [splitOnP_append_cons as bs (by simpa using hc), filter_append]

theorem words_blank_cons (hc : isBlank c) (cs : List Char) : words (c :: cs) = words cs :=
  words_append_cons hc [] cs

theorem words_of_forall (hne : word ≠ []) (h : ∀ c ∈ word, isBlank c = false) : words word = [word] := by
  rw [words, runs_eq_filter_splitOnP, splitOnP_eq_singleton (by simpa using h),
    filter_cons_of_pos (by simpa using hne), filter_nil]

/-- The blanks at the end are in no word. -/
theorem words_trimTail (cs : List Char) : words (trimTail cs) = words cs := by
  induction cs using reverseRecOn with
  | nil => rfl
  | append_singleton front c ih =>
    by_cases hc : isBlank c
    · have htail : trimTail (front ++ [c]) = trimTail front := by simp [trimTail, hc]
      rw [htail, ih, words_append_cons hc]
      exact (append_nil _).symm
    · rw [trimTail_of_last getLast?_concat (by simpa using hc)]

theorem words_trim (cs : List Char) : words (trim cs) = words cs := by
  have hlead : words (trimLead cs) = words cs := by
    induction cs with
    | nil => rfl
    | cons c cs ih =>
      rw [trimLead, dropWhile_cons]
      split
      · rename_i hc
        rw [words_blank_cons hc]
        exact ih
      · rfl
  rw [trim, words_trimTail, hlead]

/-- A text without words is trimmed away. -/
theorem words_eq_nil_iff_trim : words cs = [] ↔ trim cs = [] := by
  rw [← words_trim]
  refine ⟨fun h => ?_, fun h => by rw [h]; rfl⟩
  cases htrim : trim cs with
  | nil => rfl
  | cons c rest =>
    have hblank := words_eq_nil_iff.1 h c (htrim ▸ mem_cons_self)
    have hhead := (isTrimmed_trim cs).1 c (by rw [htrim, head?_cons])
    exact absurd hblank (by simp [hhead])

/-- A trimmed text is one word at most exactly if no blank stands in it. -/
theorem length_words_le_one_iff (h : IsTrimmed cs) : (words cs).length ≤ 1 ↔ ∀ c ∈ cs, isBlank c = false := by
  constructor
  · intro hlength c hc
    by_contra hblank
    rw [Bool.not_eq_false] at hblank
    obtain ⟨as, bs, rfl⟩ := append_of_mem hc
    -- There is a word on either side of a blank that stands in the text.
    have has : words as ≠ [] := by
      rw [Ne, words_eq_nil_iff]
      intro hall
      cases as with
      | nil => exact absurd (h.1 c rfl) (by simp [hblank])
      | cons d ds => exact absurd (h.1 d rfl) (by simp [hall d])
    have hbs : words bs ≠ [] := by
      rw [Ne, words_eq_nil_iff]
      intro hall
      cases hlast : bs.getLast? with
      | none =>
        rw [getLast?_eq_none_iff.1 hlast] at h
        exact absurd (h.2 c getLast?_concat) (by simp [hblank])
      | some d =>
        have hd : (as ++ c :: bs).getLast? = some d := by simp [getLast?_cons, hlast]
        exact absurd (h.2 d hd) (by simp [hall d (mem_of_getLast? hlast)])
    have hpos := length_pos_iff.2 has
    have hpos' := length_pos_iff.2 hbs
    rw [words_append_cons hblank, length_append] at hlength
    omega
  · intro hall
    cases cs with
    | nil => exact Nat.zero_le 1
    | cons c cs => rw [words_of_forall (cons_ne_nil c cs) hall, length_singleton]

/-- Words with one space between each two. -/
theorem words_intercalate {ws : List String} (h : ∀ w ∈ ws, w ≠ "" ∧ ∀ c ∈ w.toList, isBlank c = false) :
    words (" ".intercalate ws).toList = ws.map String.toList := by
  induction ws with
  | nil => rfl
  | cons first rest ih =>
    obtain ⟨⟨hne, hfirst⟩, hrest⟩ := forall_mem_cons.1 h
    have hword := words_of_forall (by simpa using hne) hfirst
    cases rest with
    | nil => rw [String.intercalate_singleton, hword, map_singleton]
    | cons second rest =>
      have hlist : (" ".intercalate (first :: second :: rest)).toList =
          first.toList ++ ' ' :: (" ".intercalate (second :: rest)).toList := by
        rw [String.intercalate_cons_cons]
        simp
      rw [hlist, words_append_cons rfl, hword, ih hrest]
      rfl

end ServiceCompiler.Text
