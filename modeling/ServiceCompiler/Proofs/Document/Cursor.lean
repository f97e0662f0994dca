import ServiceCompiler.Document.Window

namespace ServiceCompiler.Document

open List

/-!
# Going through written text

Documents are written here with characters that nothing is wrong with.  On such a text nothing that a reader
looks ahead at is refused, and the place of a cursor is told by the characters it has passed.

* `isPrintable`, `isLineChar` — characters of a line, `IsWritten` — the texts.
* `Mark.beyond` — the place behind some characters.
* `Window.Clear` — nothing to be refused lies ahead; looking ahead succeeds and keeps it.
-/

/-! ### Characters -/

def isPrintable (c : Char) : Bool := 0x20 ≤ c.toNat && c.toNat ≤ 0x7e

/-- Whether the character may stand in a text behind its beginning. -/
def isReadable (c : Char) : Bool := isAllowed c && c != byteOrderMark

/-- Whether the character stands for itself on a line. -/
def isLineChar (c : Char) : Bool := isReadable c && c != '\t' && !isBreak c

/-- A text in which nothing is refused. -/
def IsWritten (cs : List Char) : Prop := ∀ c ∈ cs, isReadable c

section LineChars

variable {c : Char}

theorem isLineChar_of_isPrintable (h : isPrintable c) : isLineChar c = true := by
  have hrange : 0x20 ≤ c.toNat ∧ c.toNat ≤ 0x7e := by simpa [isPrintable] using h
  have hne : ∀ d : Char, isPrintable d = false → c ≠ d := by
    rintro d hd rfl
    rw [h] at hd
    exact absurd hd (by decide)
  have hallowed : isAllowed c = true := by
    simp only [isAllowed, Bool.or_eq_true, Bool.and_eq_true, decide_eq_true_eq]
    exact .inl (.inl (.inl (.inl (.inr hrange))))
  have hbreak : isBreak c = false := by
    simp only [isBreak, isSeparator, Bool.or_eq_false_iff, beq_eq_false_iff_ne]
    exact ⟨⟨⟨hne _ (by decide), hne _ (by decide)⟩, by omega⟩, by omega, by omega⟩
  simp [isLineChar, isReadable, hallowed, hbreak, hne _ (by decide : isPrintable byteOrderMark = false),
    hne '\t' (by decide)]

theorem isShown_of_isPrintable (h : isPrintable c) : isShown c = true := by
  have hrange : 0x20 ≤ c.toNat ∧ c.toNat ≤ 0x7e := by simpa [isPrintable] using h
  simp only [isShown, Bool.or_eq_true, Bool.and_eq_true, decide_eq_true_eq]
  exact .inl (.inl (.inr hrange))

variable (h : isLineChar c)
include h

theorem isReadable_of_isLineChar : isReadable c = true := by
  rw [isLineChar, Bool.and_eq_true, Bool.and_eq_true] at h
  exact h.1.1

theorem isBreak_of_isLineChar : isBreak c = false := by
  rw [isLineChar, Bool.and_eq_true] at h
  simpa using h.2

theorem isGap_eq_of_isLineChar : isGap c = (c == ' ') := by
  rw [isLineChar, Bool.and_eq_true, Bool.and_eq_true, bne_iff_ne] at h
  rw [isGap, beq_eq_false_iff_ne.2 h.1.2, Bool.or_false]

end LineChars

namespace IsWritten

variable {cs ds : List Char}

theorem append (hc : IsWritten cs) (hd : IsWritten ds) : IsWritten (cs ++ ds) :=
  forall_mem_append.2 ⟨hc, hd⟩

theorem cons {c : Char} (hc : isReadable c) (h : IsWritten cs) : IsWritten (c :: cs) :=
  forall_mem_cons.2 ⟨hc, h⟩

theorem of_append_right (h : IsWritten (cs ++ ds)) : IsWritten ds := (forall_mem_append.1 h).2

theorem of_line (h : ∀ c ∈ cs, isLineChar c) : IsWritten cs := fun c hc => isReadable_of_isLineChar (h c hc)

theorem isAllowed (h : IsWritten cs) : ∀ c ∈ cs, isAllowed c = true := fun c hc =>
  (Bool.and_eq_true_iff.1 (h c hc)).1

theorem notMarked (h : IsWritten cs) : byteOrderMark ∉ cs := fun hmem => absurd (h _ hmem) (by decide)

end IsWritten

theorem isWritten_nil : IsWritten [] := fun _ hc => absurd hc not_mem_nil

theorem isWritten_spaces (n : Nat) : IsWritten (replicate n ' ') := by
  intro c hc
  rw [eq_of_mem_replicate hc]
  decide

/-! ### Places -/

namespace Mark

/-- The place behind some characters. -/
def beyond : Mark → List Char → Mark
  | m, [] => m
  | m, c :: cs => beyond (if c = '\n' then m.nextLine 1 else m.ahead 1) cs

/-- A place before another one, or the same. -/
def AtMost (m n : Mark) : Prop := m.line ≤ n.line ∧ m.offset ≤ n.offset

variable {m n : Mark} {cs ds : List Char}

theorem AtMost.refl (m : Mark) : m.AtMost m := ⟨Nat.le_refl _, Nat.le_refl _⟩

theorem AtMost.trans {k : Mark} (h : m.AtMost n) (h' : n.AtMost k) : m.AtMost k :=
  ⟨Nat.le_trans h.1 h'.1, Nat.le_trans h.2 h'.2⟩

@[simp] theorem beyond_nil (m : Mark) : m.beyond [] = m := rfl

theorem beyond_append (m : Mark) (cs ds : List Char) : m.beyond (cs ++ ds) = (m.beyond cs).beyond ds := by
  induction cs generalizing m with
  | nil => rfl
  | cons c cs ih => exact ih _

theorem atMost_beyond (m : Mark) (cs : List Char) : m.AtMost (m.beyond cs) := by
  induction cs generalizing m with
  | nil => exact .refl m
  | cons c cs ih =>
    refine AtMost.trans ?_ (ih _)
    split
    · exact ⟨Nat.le_succ _, Nat.le_add_right _ _⟩
    · exact ⟨Nat.le_refl _, Nat.le_add_right _ _⟩

/-- Inside a line, only the number of characters counts. -/
theorem beyond_eq_ahead (m : Mark) (h : '\n' ∉ cs) : m.beyond cs = m.ahead cs.length := by
  induction cs generalizing m with
  | nil => rfl
  | cons c cs ih =>
    obtain ⟨hc, hcs⟩ : '\n' ≠ c ∧ '\n' ∉ cs := by simpa using h
    rw [beyond, if_neg (Ne.symm hc), ih _ hcs, length_cons]
    simp only [ahead, Mark.mk.injEq, true_and]
    omega

theorem ahead_ahead (m : Mark) (a b : Nat) : (m.ahead a).ahead b = m.ahead (a + b) := by
  simp [ahead, Nat.add_assoc]

theorem notMem_spaces (n : Nat) : '\n' ∉ replicate n ' ' := by
  intro h
  exact absurd (eq_of_mem_replicate h) (by decide)

/-- At the beginning of a line, the spaces there tell the column. -/
theorem column_beyond_line (m : Mark) (cs : List Char) (n : Nat) :
    (m.beyond (cs ++ '\n' :: replicate n ' ')).column = n := by
  rw [beyond_append, beyond, if_pos rfl, beyond_eq_ahead _ (notMem_spaces n), length_replicate]
  exact Nat.zero_add n

end Mark

theorem notMem_newline_of_line {cs : List Char} (h : ∀ c ∈ cs, isLineChar c) : '\n' ∉ cs :=
  fun hmem => absurd (h _ hmem) (by decide)

/-! ### Cursors -/

namespace Cursor

variable {cs ds : List Char} {m : Mark}

/-- Characters of one line are passed by their number. -/
theorem skip_append (h : '\n' ∉ cs) : (⟨cs ++ ds, m⟩ : Cursor).skip cs.length = ⟨ds, m.beyond cs⟩ := by
  rw [skip, Mark.beyond_eq_ahead m h, drop_left]

theorem skip_zero (c : Cursor) : c.skip 0 = c := rfl

/-- A run ends at the first character that does not belong to it. -/
theorem run_append {p : Char → Bool} (hcs : ∀ c ∈ cs, p c) (hds : ∀ c ∈ ds.head?, p c = false)
    (hline : '\n' ∉ cs) : (⟨cs ++ ds, m⟩ : Cursor).run p = (cs, ⟨ds, m.beyond cs⟩) := by
  have htake : (cs ++ ds).takeWhile p = cs := by
    rw [takeWhile_append_of_pos hcs]
    cases ds with
    | nil => simp
    | cons d ds => simp [hds d rfl]
  simp only [run]
  rw [htake, skip_append hline]

end Cursor

/-! ### Windows -/

namespace Window

/-- Nothing that lies ahead is to be refused. -/
structure Clear (w : Window) : Prop where
  isMarked : w.isMarked = false
  isAllowed : ∀ p ∈ w.ahead, p.isAllowed

theorem load?_of_allowed {goal : Nat} {ahead : List Piece} (h : ∀ p ∈ ahead, p.isAllowed) (loaded : Nat) :
    ∃ n ps, load? goal loaded ahead = some (n, ps) ∧ ∀ p ∈ ps, p.isAllowed := by
  induction ahead generalizing loaded with
  | nil => exact ⟨_, [], rfl, by simp⟩
  | cons p ps ih =>
    rw [load?]
    split
    · exact ⟨_, _, rfl, h⟩
    · rw [if_pos (h p mem_cons_self)]
      exact ih (fun q hq => h q (mem_cons_of_mem _ hq)) _

variable {w : Window} {c : Cursor}

theorem Clear.want? (hw : w.Clear) (hc : byteOrderMark ∉ c.rest) (count : Nat) :
    ∃ w', w.want? c count = some w' ∧ w'.Clear := by
  rw [Window.want?]
  dsimp only
  split
  · exact ⟨w, rfl, hw⟩
  · obtain ⟨n, ps, hload, hps⟩ := load?_of_allowed hw.isAllowed w.loaded
    rw [hload]
    refine ⟨_, rfl, ?_, hps⟩
    have hne : c.rest.head? ≠ some byteOrderMark := fun h => hc (mem_of_head? h)
    simpa [Cursor.at_, Cursor.head?] using hne

theorem notMem_skip {d : Char} (hc : d ∉ c.rest) (n : Nat) : d ∉ (c.skip n).rest :=
  fun h => hc (mem_of_mem_drop h)

theorem Clear.along? (hw : w.Clear) (hc : byteOrderMark ∉ c.rest) (count n : Nat) :
    ∃ w', Window.along? count n w c = some w' ∧ w'.Clear := by
  induction n generalizing w c with
  | zero => exact ⟨w, rfl, hw⟩
  | succ n ih =>
    obtain ⟨w₁, hwant, hw₁⟩ := hw.want? hc count
    rw [Window.along?, hwant]
    exact ih hw₁ (notMem_skip hc 1)

theorem Clear.alongWords? (hw : w.Clear) (hc : byteOrderMark ∉ c.rest) (n : Nat) (atStart : Bool) :
    ∃ w', Window.alongWords? n atStart w c = some w' ∧ w'.Clear := by
  induction n generalizing w c atStart with
  | zero => exact ⟨w, rfl, hw⟩
  | succ n ih =>
    obtain ⟨w₁, hwant, hw₁⟩ := hw.want? hc (reach atStart c.head?)
    rw [Window.alongWords?, hwant]
    exact ih hw₁ (notMem_skip hc 1) _

theorem Clear.peek? (hw : w.Clear) (hc : byteOrderMark ∉ c.rest) (count : Nat) :
    ∃ w', w.peek? c count = some w' ∧ w'.Clear := by
  rw [Window.peek?]
  induction range count generalizing w with
  | nil => exact ⟨w, rfl, hw⟩
  | cons n ns ih =>
    obtain ⟨w₁, hwant, hw₁⟩ := hw.want? hc (n + 1)
    rw [foldlM_cons, hwant]
    exact ih hw₁

/-- The pieces of a written text are let pass. -/
theorem isAllowed_of_mem_cut {cs : List Char} (hcs : ∀ c ∈ cs, isAllowed c = true) (room : Nat)
    {current : Piece} (hcurrent : current.isAllowed) :
    ∀ p ∈ Piece.cut room current cs, p.isAllowed := by
  induction cs generalizing room current with
  | nil =>
    intro p hp
    rw [Piece.cut] at hp
    split at hp
    · exact absurd hp not_mem_nil
    · rw [mem_singleton.1 hp]
      exact hcurrent
  | cons c cs ih =>
    have hc : isAllowed c = true := hcs c mem_cons_self
    have hrest := fun d hd => hcs d (mem_cons_of_mem c hd)
    intro p hp
    rw [Piece.cut] at hp
    split at hp
    · exact ih hrest _ (by simp [hcurrent, hc]) p hp
    · rcases mem_cons.1 hp with rfl | hp
      · exact hcurrent
      · exact ih hrest _ hc p hp

end Window

end ServiceCompiler.Document
