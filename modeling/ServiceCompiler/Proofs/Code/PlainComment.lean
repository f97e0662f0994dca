import ServiceCompiler.Proofs.Code.Token

namespace ServiceCompiler.Code

open List

/-!
# Comments that are left alone

The formatter reads the comment of a declaration as a document, in which indentation, brackets and doubled quotation
marks have a meaning, and refuses some comments altogether.  A plain sentence goes through all this unchanged.

* `IsSentence` — printable ASCII with a letter in front and no blank at the end, without brackets and quotation marks
  that curl.
* `DocText.format_sentence` — as a document it is one paragraph, written as it is.
* `Columns.chars_marked` — a line between marks is written as it is, whatever it holds.
* `IsSentence.docComment?_eq` — so the comment is two slashes, a blank and the sentence.
-/

/-- Whether a character has no meaning of its own in a comment: printable ASCII except for brackets and the quotation
    marks that curl. -/
def isSentenceChar (c : Char) : Bool :=
  0x20 ≤ c.toNat && c.toNat < 0x7f && !(['[', ']', '\x60', '\''].contains c)

/-- A plain sentence. -/
structure IsSentence (cs : List Char) : Prop where
  chars : ∀ c ∈ cs, isSentenceChar c
  head : ∃ c rest, cs = c :: rest ∧ Text.isAsciiLetter c
  last : ∃ c, cs.getLast? = some c ∧ c ≠ ' '

theorem isSentence_iff {cs : List Char} :
    IsSentence cs ↔ (∀ c ∈ cs, isSentenceChar c) ∧ cs.head?.any Text.isAsciiLetter ∧ cs.getLast?.any (· != ' ') := by
  constructor
  · intro h
    obtain ⟨c, rest, rfl, hc⟩ := h.head
    obtain ⟨d, hlast, hd⟩ := h.last
    exact ⟨h.chars, by simpa using hc, by simpa [hlast] using hd⟩
  · rintro ⟨hchars, hhead, hlast⟩
    obtain ⟨c, hc, hletter⟩ := (Option.any_eq_true _ _).1 hhead
    obtain ⟨d, hd, hne⟩ := (Option.any_eq_true _ _).1 hlast
    obtain ⟨rest, rfl⟩ := head?_eq_some_iff.1 hc
    exact ⟨hchars, ⟨c, rest, rfl, hletter⟩, ⟨d, hd, by simpa using hne⟩⟩

instance (cs : List Char) : Decidable (IsSentence cs) :=
  have : Decidable (∀ c ∈ cs, isSentenceChar c) := decidableBAll _ cs
  decidable_of_iff _ isSentence_iff.symm

namespace IsSentence

variable {cs : List Char}

/-- Characters with a meaning do not occur. -/
theorem notMem (h : IsSentence cs) {c : Char} (hc : isSentenceChar c = false) : c ∉ cs :=
  fun hmem => by simp [h.chars c hmem] at hc

theorem head_ne (h : IsSentence cs) {c : Char} (hc : Text.isAsciiLetter c = false) : cs.head? ≠ some c := by
  obtain ⟨d, rest, rfl, hd⟩ := h.head
  rintro ⟨⟩
  simp [hc] at hd

theorem ne_nil (h : IsSentence cs) : cs ≠ [] := by
  obtain ⟨c, rest, rfl, -⟩ := h.head
  exact cons_ne_nil c rest

end IsSentence

theorem not_isBlank_of_isSentenceChar {c : Char} (h : isSentenceChar c) (hne : c ≠ ' ') : Text.isBlank c = false := by
  simp only [isSentenceChar, Bool.and_eq_true, decide_eq_true_eq] at h
  obtain ⟨⟨hlow, hhigh⟩, -⟩ := h
  have hspace : c.toNat ≠ 0x20 := fun heq => hne (Char.ext (UInt32.toNat_inj.1 heq))
  simp only [Text.isBlank, Bool.or_eq_false_iff, Bool.and_eq_false_iff, decide_eq_false_iff_not, beq_eq_false_iff_ne]
  omega

theorem not_isBlank_of_isAsciiLetter {c : Char} (h : Text.isAsciiLetter c) : Text.isBlank c = false := by
  simp only [Text.isAsciiLetter, decide_eq_true_eq, Char.le_def, UInt32.le_iff_toNat_le] at h
  have hrange : 65 ≤ c.toNat ∧ c.toNat ≤ 122 := by
    rcases h with ⟨hlow, hhigh⟩ | ⟨hlow, hhigh⟩
    · exact ⟨Nat.le_trans (by decide) hlow, hhigh⟩
    · exact ⟨hlow, Nat.le_trans hhigh (by decide)⟩
  simp only [Text.isBlank, Bool.or_eq_false_iff, Bool.and_eq_false_iff, decide_eq_false_iff_not, beq_eq_false_iff_ne]
  omega

/-! ### As a document -/

namespace DocText

theorem curlStep_plain (addresses : Bool) (whole : Text.Octets) (place : Nat) {c : Char} (hback : c ≠ '\x60')
    (hquote : c ≠ '\'') (cs : List Char) : ∃ n, curlStep addresses whole place c cs = (c, .copied n) := by
  unfold curlStep
  simp only
  generalize (if addresses then _ else 0) = kept
  by_cases hkept : kept > 0
  · exact ⟨_, if_pos hkept⟩
  · rw [if_neg hkept]
    split
    · exact absurd rfl hback
    · exact absurd rfl hback
    · exact absurd rfl hquote
    · exact ⟨0, rfl⟩

/-- Without quotation marks, the text is copied; how far it is copied at once does not matter. -/
theorem curlFrom_plain (addresses : Bool) (whole : Text.Octets) {cs : List Char} (hback : '\x60' ∉ cs) (hquote : '\'' ∉ cs)
    (place octets : Nat) : curlFrom addresses whole place (.copied octets) cs = cs := by
  induction cs generalizing place octets with
  | nil => rfl
  | cons c cs ih =>
    rw [mem_cons, not_or] at hback hquote
    have hrest := ih hback.2 hquote.2
    rw [curlFrom]
    by_cases hcopied : octets > 0
    · rw [if_pos hcopied, hrest]
    · obtain ⟨n, hn⟩ := curlStep_plain addresses whole place (Ne.symm hback.1) (Ne.symm hquote.1) cs
      rw [if_neg hcopied, hn]
      exact congrArg (c :: ·) (hrest _ n)

theorem foldl_linking_plain {cs : List Char} (hopen : '[' ∉ cs) (hclose : ']' ∉ cs) (plain : List Char) :
    cs.foldl (Linking.add []) { plain } = { plain := cs.reverse ++ plain } := by
  induction cs generalizing plain with
  | nil => rfl
  | cons c cs ih =>
    rw [mem_cons, not_or] at hopen hclose
    have hstep : Linking.add [] { plain } c = { plain := c :: plain } := by
      rw [Linking.add, if_neg (Ne.symm hopen.1), if_neg (Ne.symm hclose.1)]
    rw [foldl_cons, hstep, ih hopen.2 hclose.2]
    simp

variable {cs : List Char} (h : IsSentence cs)
include h

theorem isIndented_sentence : isIndented cs = false := by
  obtain ⟨c, rest, rfl, hc⟩ := h.head
  have hspace : c ≠ ' ' := by
    rintro rfl
    exact absurd hc (by decide)
  have htab : c ≠ '\t' := by
    rintro rfl
    exact absurd hc (by decide)
  simp [isIndented, isGap, hspace, htab]

theorem link_sentence : link [] [cs] = ([cs], []) := by
  have hfold := foldl_linking_plain (h.notMem (by decide)) (h.notMem (by decide)) []
  have hcurl : curl true cs = cs := curlFrom_plain true _ (h.notMem (by decide)) (h.notMem (by decide)) 0 0
  unfold link
  rw [show ['\n'].intercalate [cs] = cs by simp, hfold]
  simp only [append_nil, Option.map_none, Option.getD_none, nil_append, reverse_reverse, hcurl]
  rw [Text.splitOn_of_notMem (h.notMem (by decide))]

theorem takeWhile_isGap_sentence : cs.takeWhile isGap = [] := by
  have hindented := isIndented_sentence h
  obtain ⟨c, rest, rfl, -⟩ := h.head
  exact takeWhile_cons_of_neg (by simpa [isIndented] using hindented)

theorem dropEmptyEnds_sentence : dropEmptyEnds [cs] = [cs] := by
  simp [dropEmptyEnds, h.ne_nil]

theorem unindent_sentence : unindent [cs, []] = [cs] := by
  have hends : dropEmptyEnds [cs, []] = [cs] := by simp [dropEmptyEnds, h.ne_nil]
  have htrim : (Text.trim cs).isEmpty = false := by
    obtain ⟨c, rest, rfl, hc⟩ := h.head
    rw [Text.trim, Text.trimLead, dropWhile_cons_of_neg (by simp [not_isBlank_of_isAsciiLetter hc])]
    obtain ⟨d, hlast, hd⟩ := h.last
    have hmem : d ∈ c :: rest := mem_of_getLast? hlast
    rw [Text.trimTail_of_last hlast (not_isBlank_of_isSentenceChar (h.chars d hmem) hd)]
    rfl
  unfold unindent
  rw [hends]
  simp only [filter_nil, foldl_nil, takeWhile_isGap_sentence h, map_cons, map_nil, Text.stripLead?,
    Option.getD_some, htrim, Bool.false_eq_true, if_false]
  exact dropEmptyEnds_sentence h

theorem spans_sentence : spans [cs] = [⟨0, 1, .paragraph⟩] := by
  have hheading : isHeading cs = false := by
    unfold isHeading
    split
    · exact absurd rfl (h.head_ne (c := '#') (by decide))
    · rfl
  simp [spans, spansFrom, h.ne_nil, isIndented_sentence h, leftForIndented, plainSpan, hheading]

/-- **A sentence is a paragraph** that is written as it is. -/
theorem format_sentence : format [cs, []] = [cs] := by
  have hlink : link? cs = none := by
    unfold link?
    split
    · exact absurd rfl (h.head_ne (c := '[') (by decide))
    · rfl
  have hblocks : blocks [cs, []] = ([.paragraph [cs]], []) := by
    rw [blocks]
    simp only [unindent_sentence h, spans_sentence h]
    simp [blocksFrom, paragraphOrLinks, hlink]
  unfold format
  rw [hblocks]
  simp [Block.lines, link_sentence h, usage]

end DocText

/-! ### Between marks -/

namespace Columns

/-- What stands between marks is kept in the cell. -/
theorem foldl_add_inside (d : Dividing) (hinside : d.isInside = true) (cs : List Char) :
    (cs.map some).foldl Dividing.add d = { d with items := (cs.map some).reverse ++ d.items } := by
  induction cs generalizing d with
  | nil => rfl
  | cons c cs ih =>
    have hstep : d.add (some c) = { d with items := some c :: d.items } := by
      simp only [Dividing.add, hinside, if_true]
    rw [map_cons, foldl_cons, hstep]
    refine (ih { d with items := some c :: d.items } hinside).trans ?_
    simp

theorem trimmed_inside (cs : List Char) (rest : Marked) :
    trimmed true [] (cs.map some ++ none :: rest) = cs ++ trimmed false [] rest := by
  induction cs with
  | nil => rfl
  | cons c cs ih => exact congrArg (c :: ·) ih

/-- A line between marks is written as it is. -/
theorem chars_marked (cs : List Char) : chars (none :: cs.map some ++ [none, some '\n']) = cs ++ ['\n'] := by
  have hlines : lines (none :: cs.map some ++ [none, some '\n']) =
      [⟨[], none :: cs.map some ++ [none], false⟩, ⟨[], [], false⟩] := by
    unfold lines
    rw [cons_append, foldl_cons, foldl_append, foldl_add_inside _ rfl]
    simp [Dividing.add]
  have htrimmed := trimmed_inside cs [some '\n']
  unfold chars
  rw [hlines]
  simp only [sections, flatMap_cons, flatMap_nil, paddedLines, map_cons, map_nil, length_nil,
    foldl_cons, foldl_nil, Nat.max_self, widths, zipWith_cons_cons, zipWith_nil_right, paddedCells,
    nil_append, append_nil]
  rw [show [some '\n'].intercalate [none :: cs.map some ++ [none], []] = none :: (cs.map some ++ [none, some '\n']) by simp,
    trimmed, htrimmed]
  simp [trimmed]

end Columns

/-! ### The comment -/

/-- Behind a blank there is nothing that is meant for a tool. -/
theorem DocComment.isDirective_blank (cs : List Char) : isDirective (' ' :: cs) = false := by
  unfold isDirective
  simp only [Bool.or_eq_false_iff]
  refine ⟨by simp [Text.hasLead, Text.stripLead?], ?_⟩
  split
  · rename_i before c after hcut
    -- What precedes the colon begins with the blank, which is neither a letter nor a digit.
    have hwhole := (Text.eq_append_of_cutAt? hcut).1
    cases before with
    | nil => rfl
    | cons d before =>
      obtain ⟨rfl, -⟩ := cons.inj hwhole
      simp [Text.isDigit]
  · rfl

namespace CommentRun

/-- A line comment goes to the end of the text. -/
theorem comments?_line {cs : List Char} (hline : '\n' ∉ cs) (p : Placed) (n : Nat) :
    comments? (.line p) n cs = some [{ p with text := p.text.reverse ++ cs }] := by
  induction cs generalizing p with
  | nil => simp [comments?, Placed.done]
  | cons c cs ih =>
    rw [mem_cons, not_or] at hline
    rw [comments?, if_neg (Ne.symm hline.1), ih hline.2]
    simp [Placed.push]

end CommentRun

/-- A text as a line comment. -/
def slashed (cs : List Char) : List Char := '/' :: '/' :: ' ' :: cs

theorem isLineComment_slashed (cs : List Char) : isLineComment (slashed cs) = true := by
  simp [isLineComment, slashed, Text.hasLead, Text.stripLead?]

section Sentence

variable {cs : List Char} (h : IsSentence cs)
include h

theorem commentText_sentence : commentText cs = slashed cs := by
  obtain ⟨c, rest, rfl, hc⟩ := h.head
  have hslash : '/' ≠ c := by
    rintro rfl
    exact absurd hc (by decide)
  have hlead : ∀ d, Text.hasLead ['/', d] (c :: rest) = false := fun d => by simp [Text.hasLead, Text.stripLead?, hslash]
  have hline : (c :: rest).contains '\n' = false := by
    simpa using h.notMem (c := '\n') (by decide)
  rw [commentText, hlead, hlead, hline]
  rfl

theorem areCommentChars_slashed : areCommentChars (slashed cs) = true := by
  have hchars : ∀ c ∈ cs, (c.toNat != 0 && c.toNat != 0xfeff) = true := by
    intro c hc
    have hclass := h.chars c hc
    simp only [isSentenceChar, Bool.and_eq_true, decide_eq_true_eq] at hclass
    simp only [Bool.and_eq_true, bne_iff_ne]
    omega
  simpa [areCommentChars, slashed] using hchars

theorem dropReturns_slashed : dropReturns (slashed cs) = slashed cs := by
  have hkept : ∀ c ∈ slashed cs, (c != '\r') = true := by
    intro c hc
    rw [bne_iff_ne]
    rintro rfl
    simp only [slashed, mem_cons, Char.reduceEq, false_or] at hc
    exact h.notMem (by decide) hc
  rw [dropReturns, if_pos (isLineComment_slashed cs), filter_eq_self.2 hkept]

theorem formatComment_slashed : formatComment (slashed cs) = [slashed cs] := by
  obtain ⟨c, hlast, hc⟩ := h.last
  have hblank := not_isBlank_of_isSentenceChar (h.chars c (mem_of_getLast? hlast)) hc
  have hend : (slashed cs).getLast? = some c := by
    rw [← hlast]
    exact getLast?_append_of_ne_nil ['/', '/', ' '] h.ne_nil
  rw [formatComment, if_pos (isLineComment_slashed cs), Text.trimTail_of_last hend hblank]

/-- Behind its slashes the comment has a blank, so that it is not meant for a tool. -/
theorem formatted?_slashed : DocComment.formatted? [slashed cs] = some [slashed cs] := by
  have htab : cs.head? ≠ some '\t' := h.head_ne (by decide)
  have hpartition : [slashed cs].partition (fun t => DocComment.isDirective (t.drop 2)) = ([], [slashed cs]) := by
    simp [partition_eq_filter_filter, slashed, DocComment.isDirective_blank]
  rw [DocComment.formatted?, if_pos (by simp [isLineComment_slashed]), DocComment.lineComments, hpartition]
  simp [slashed, Text.stripLead?, DocText.format_sentence h, htab, h.ne_nil]

/-- The only comment of the text is itself. -/
theorem comments?_slashed : CommentRun.comments? (.gap true) 1 (slashed cs) = some [⟨slashed cs, 1, true⟩] := by
  have hline : '\n' ∉ ' ' :: cs := by
    rw [mem_cons, not_or]
    exact ⟨by decide, h.notMem (by decide)⟩
  rw [slashed, CommentRun.comments?, CommentRun.comments?_line hline]
  rfl

end Sentence

/-- **A sentence is left alone.** -/
theorem IsSentence.docComment?_eq {text : String} (h : IsSentence text.toList) :
    docComment? text = some ("// " ++ text ++ "\n") := by
  have haccepted : (⟨slashed text.toList, 1, true⟩ : CommentRun.Placed).isAccepted = true := by
    simp [CommentRun.Placed.isAccepted, slashed, Text.hasLead, Text.stripLead?]
  have hdocument : DocComment.isDocument [] ⟨slashed text.toList, 1, true⟩ = true := by
    simp [DocComment.isDocument, dropReturns_slashed h]
  have hmarked : CommentRun.markLines [slashed text.toList] ++ [some '\n'] =
      none :: (slashed text.toList).map some ++ [none, some '\n'] := by
    simp [CommentRun.markLines, CommentRun.markLine, slashed]
  unfold docComment?
  simp only [commentText_sentence h, areCommentChars_slashed h, comments?_slashed h]
  simp only [Bool.not_true, Bool.false_eq_true, if_false, Option.bind_eq_bind, Option.bind_some, all_cons, haccepted,
    all_nil, Bool.and_self, getLast?_singleton, dropLast_singleton, hdocument, if_true, foldl_nil,
    CommentRun.separator, isEmpty_nil, append_nil, nil_append, formatted?_slashed h, Option.getD_some,
    flatMap_singleton, formatComment_slashed h, hmarked, Columns.chars_marked]
  refine congrArg some (String.toList_injective ?_)
  simp [slashed]

/-- The comment has no line end inside. -/
theorem IsSentence.isLine {text : String} (h : IsSentence text.toList) : IsLine text := h.notMem (by decide)

end ServiceCompiler.Code
