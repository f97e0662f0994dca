import Mathlib.Data.List.TakeWhile
import ServiceCompiler.Text.Scan

namespace ServiceCompiler.Text

open Option

/-!
# What scanners yield

`Yields s P` says that every value which the scanner `s` reads off any text satisfies `P`.  There is one
rule for each way to build a scanner, so that what a composed scanner yields is read off its text:
`Yields.bind` for a sequence, `yields_run1` and `yields_ledBy` for runs of characters, and
`Yields.anywhere?` for the search of a place where the scanner succeeds.

Where a value was read is told by `exists_place_of_anywhere?` together with the equations for what each
scanner takes off a text.  The other way round, `ReadsOff` says what a scanner makes of a given text in front
of others, again with one rule for each way to build a scanner.
-/

variable {p : Char → Bool} {cs : List Char} {rest : List Char}

variable {α β : Type}

/-- Every value that the scanner reads satisfies `P`. -/
def Yields (s : Scan α) (P : α → Prop) : Prop := ∀ cs a rest, s cs = some (a, rest) → P a

namespace Yields

variable {s : Scan α} {P : α → Prop}

theorem trivial (s : Scan α) : Yields s fun _ => True := fun _ _ _ _ => True.intro

theorem pure {a : α} (h : P a) : Yields (Pure.pure a : Scan α) P := by
  intro cs b rest hb
  obtain ⟨rfl, -⟩ := Prod.mk.inj (some.inj hb)
  exact h

theorem failure : Yields (Alternative.failure : Scan α) P := by
  intro cs a rest h
  simp [Alternative.failure, StateT.failure] at h

/-- What is read after a value depends on what holds of the value. -/
theorem bind {f : α → Scan β} {R : β → Prop} (hs : Yields s P) (hf : ∀ a, P a → Yields (f a) R) :
    Yields (s >>= f) R := by
  intro cs b rest hb
  obtain ⟨⟨a, middle⟩, ha, hfa⟩ := bind_eq_some_iff.1 hb
  exact hf a (hs cs a middle ha) middle b rest hfa

/-- A value that is passed over says nothing about the next one. -/
theorem after {t : Scan β} {R : β → Prop} (ht : Yields t R) : Yields (s >>= fun _ => t) R :=
  bind (trivial s) fun _ _ => ht

theorem atStart? (h : Yields s P) {a : α} (ha : s.atStart? cs = some a) : P a := by
  obtain ⟨⟨b, rest⟩, hb, rfl⟩ := map_eq_some_iff.1 ha
  exact h cs b rest hb

/-- What is found at some place of a text is a value that the scanner reads. -/
theorem anywhere? (h : Yields s P) {a : α} (ha : s.anywhere? cs = some a) : P a := by
  induction cs with
  | nil => exact h.atStart? ha
  | cons c cs ih =>
    rcases or_eq_some_iff.1 ha with ha | ⟨-, ha⟩
    · exact h.atStart? ha
    · exact ih ha

end Yields

/-- A run is not empty and stays inside its class. -/
theorem yields_run1 (p : Char → Bool) : Yields (run1 p) fun w => w ≠ "" ∧ ∀ c ∈ w.toList, p c := by
  intro cs w rest h
  rw [run1] at h
  split at h
  · simp at h
  · rename_i c word htake
    obtain ⟨rfl, -⟩ := Prod.mk.inj (some.inj h)
    refine ⟨by simp, ?_⟩
    intro d hd
    rw [String.toList_ofList, ← htake] at hd
    exact List.mem_takeWhile_imp hd

/-- A run behind a fixed character: the character, then members of the class only. -/
theorem yields_ledBy (c : Char) (p : Char → Bool) :
    Yields (ledBy c p) fun w => ∃ cs, w.toList = c :: cs ∧ ∀ d ∈ cs, p d := by
  intro cs w rest h
  cases cs with
  | nil => simp [ledBy] at h
  | cons d cs =>
    rw [ledBy] at h
    split at h
    · obtain ⟨rfl, -⟩ := Prod.mk.inj (some.inj h)
      exact ⟨cs.takeWhile p, String.toList_ofList, fun e he => List.mem_takeWhile_imp he⟩
    · simp at h

/-! ### Where a value is read -/

/-- What is found somewhere in a text is read at a place of it. -/
theorem exists_place_of_anywhere? {s : Scan α} {a : α}
    (h : s.anywhere? cs = some a) :
    ∃ before here rest, cs = before ++ here ∧ s here = some (a, rest) := by
  have hstart : ∀ {here : List Char}, s.atStart? here = some a → ∃ rest, s here = some (a, rest) := by
    intro here hhere
    obtain ⟨⟨b, rest⟩, hb, rfl⟩ := map_eq_some_iff.1 hhere
    exact ⟨rest, hb⟩
  induction cs with
  | nil =>
    obtain ⟨rest, hrest⟩ := hstart h
    exact ⟨[], [], rest, rfl, hrest⟩
  | cons c cs ih =>
    rcases or_eq_some_iff.1 h with h | ⟨-, h⟩
    · obtain ⟨rest, hrest⟩ := hstart h
      exact ⟨[], c :: cs, rest, rfl, hrest⟩
    · obtain ⟨before, here, rest, rfl, hrest⟩ := ih h
      exact ⟨c :: before, here, rest, rfl, hrest⟩

/-- What is made of a value does not change where it is found. -/
theorem anywhere?_map (f : α → β) (s : Scan α) (cs : List Char) : (f <$> s).anywhere? cs = (s.anywhere? cs).map f := by
  have hstart : ∀ here : List Char, (f <$> s).atStart? here = (s.atStart? here).map f := by
    intro here
    show ((s here).bind fun p => some (f p.1, p.2)).map (·.1) = ((s here).map (·.1)).map f
    cases s here <;> rfl
  induction cs with
  | nil => exact hstart []
  | cons c cs ih => rw [Scan.anywhere?, Scan.anywhere?, hstart, ih, map_or]

theorem eq_append_of_literal {s : String} {u : Unit} (h : literal s cs = some (u, rest)) : cs = s.toList ++ rest := by
  obtain ⟨rest', hrest, heq⟩ := map_eq_some_iff.1 h
  obtain rfl : rest' = rest := congrArg Prod.snd heq
  exact stripLead?_eq_some_iff.1 hrest

theorem isSuffix_of_skip {u : Unit} (h : skip p cs = some (u, rest)) : rest <:+ cs := by
  obtain rfl : cs.dropWhile p = rest := congrArg Prod.snd (some.inj h)
  exact List.dropWhile_suffix p

theorem eq_append_of_run1 {w : String} (h : run1 p cs = some (w, rest)) : cs = w.toList ++ rest := by
  rw [run1] at h
  split at h
  · simp at h
  · rename_i c word htake
    obtain ⟨rfl, rfl⟩ := Prod.mk.inj (some.inj h)
    rw [String.toList_ofList, ← htake, List.takeWhile_append_dropWhile]

/-! ### What is read off a given text -/

/-- Off the text `cs` the scanner reads the value `a` and leaves `rest`. -/
def ReadsOff (s : Scan α) (cs : List Char) (a : α) (rest : List Char) : Prop := s cs = some (a, rest)

/-- One value is read behind another. -/
theorem ReadsOff.bind {s : Scan α} {f : α → Scan β} {a : α} {b : β} {middle : List Char}
    (hs : ReadsOff s cs a middle) (hf : ReadsOff (f a) middle b rest) : ReadsOff (s >>= f) cs b rest := by
  show (s cs).bind (fun p => f p.1 p.2) = _
  rw [hs]
  exact hf

/-- The value that ends a sequence of scanners takes nothing off the text. -/
theorem ReadsOff.last {s : Scan α} {f : α → β} {a : α} (hs : ReadsOff s cs a rest) :
    ReadsOff (s >>= fun a => Pure.pure (f a)) cs (f a) rest :=
  hs.bind rfl

theorem readsOff_literal (s : String) (rest : List Char) : ReadsOff (literal s) (s.toList ++ rest) () rest :=
  literal_append s rest

theorem readsOff_run1 {word : String} (hne : word ≠ "") (hword : ∀ c ∈ word.toList, p c)
    (hrest : ∀ c, rest.head? = some c → p c = false) : ReadsOff (run1 p) (word.toList ++ rest) word rest := by
  have h := run1_append (by simpa using hne) hword hrest
  rwa [String.ofList_toList] at h

/-- A run that may be empty ends where its class ends, too. -/
theorem span_append {word : List Char} (hword : ∀ c ∈ word, p c) (hrest : ∀ c, rest.head? = some c → p c = false) :
    (word ++ rest).takeWhile p = word ∧ (word ++ rest).dropWhile p = rest := by
  rw [List.takeWhile_append_of_pos hword, List.dropWhile_append_of_pos hword]
  cases rest with
  | nil => simp
  | cons c cs => simp [hrest c rfl]

theorem readsOff_skip {text : List Char} (htext : ∀ c ∈ text, p c) (hrest : ∀ c, rest.head? = some c → p c = false) :
    ReadsOff (skip p) (text ++ rest) () rest := by
  rw [ReadsOff, skip, (span_append htext hrest).2]

theorem readsOff_ledBy {c : Char} {word : String} (hword : word.toList = c :: cs) (hcs : ∀ d ∈ cs, p d)
    (hrest : ∀ d, rest.head? = some d → p d = false) : ReadsOff (ledBy c p) (word.toList ++ rest) word rest := by
  obtain ⟨htake, hdrop⟩ := span_append hcs hrest
  rw [ReadsOff, hword, List.cons_append, ledBy, if_pos rfl, htake, hdrop, ← hword, String.ofList_toList]

/-- A fixed text that begins outside of a class ends the runs of the class. -/
theorem stops_append {s : String} (h : s.toList.head?.any (!p ·) = true) (rest : List Char) :
    ∀ c, (s.toList ++ rest).head? = some c → p c = false := by
  obtain ⟨d, hd, hp⟩ := (any_eq_true _ _).1 h
  obtain ⟨ds, hs⟩ := List.head?_eq_some_iff.1 hd
  intro c hc
  rw [hs, List.cons_append, List.head?_cons] at hc
  obtain rfl := some.inj hc
  simpa using hp

/-- What is read at the beginning of a text is found first. -/
theorem ReadsOff.anywhere? {s : Scan α} {a : α} (h : ReadsOff s cs a rest) : s.anywhere? cs = some a := by
  rw [ReadsOff] at h
  cases cs with
  | nil => rw [Scan.anywhere?, Scan.atStart?, h, map_some]
  | cons c cs => rw [Scan.anywhere?, Scan.atStart?, h, map_some, some_or]

end ServiceCompiler.Text
