import ServiceCompiler.Document.Node
import ServiceCompiler.Proofs.Document.Style
import ServiceCompiler.Proofs.Text.Decimal

namespace ServiceCompiler.Document

open Scalar List Text

/-!
# Meanings of written scalars

What is written plain gets the tag of what it stands for, and under that tag it means the same again.

* `ofPlainWith_decimal` — the text of a number is that number.
* `scalarTag_decimal`, `scalarTag_text`, `scalarTag_key` — tags of numbers, texts and keys.
-/

/-! ### Numbers -/

open Text (decimal)

/-- The first digit of a positive number is not zero. -/
theorem head_toDigits {n : Nat} (h : 0 < n) : (Nat.toDigits 10 n).head? ≠ some '0' := by
  induction n using Nat.strongRecOn with
  | _ n ih =>
    by_cases hlt : n < 10
    · rw [Nat.toDigits_of_lt_base hlt]
      have hall : ∀ k < 10, 0 < k → [Nat.digitChar k].head? ≠ some '0' := by decide
      exact hall n hlt h
    · rw [Nat.toDigits_of_base_le (by decide) (by omega)]
      have hne : Nat.toDigits 10 (n / 10) ≠ [] := Nat.toDigits_ne_nil
      rw [head?_append_of_ne_nil _ hne]
      exact ih (n / 10) (by omega) (by omega)

section Decimal

variable {n : Nat}

theorem exists_digit (n : Nat) : ∃ c cs, (decimal n).toList = c :: cs ∧ isDigit c = true := by
  obtain ⟨c, cs, hcs⟩ := exists_cons_of_ne_nil (decimal_ne_empty n)
  exact ⟨c, cs, hcs, by rw [isDigit_eq]; exact isDigit_of_mem_decimal (by rw [hcs]; exact mem_cons_self)⟩

theorem isDigit_decimal (n : Nat) : ∀ c ∈ (decimal n).toList, isDigit c = true := fun c hc => by
  rw [isDigit_eq]
  exact isDigit_of_mem_decimal hc

/-- No number is a word with a meaning of its own. -/
theorem word?_decimal (n : Nat) : word? (decimal n) = none := by
  obtain ⟨c, cs, hcs, hc⟩ := exists_digit n
  have hne : ∀ s : String, (s.toList.head?.map isDigit).getD false = false → decimal n ≠ s := by
    rintro s hs rfl
    rw [hcs] at hs
    exact absurd (hc.symm.trans hs) (by decide)
  have hnone : ∀ words : List String,
      (words.all fun s => !(s.toList.head?.map isDigit).getD false) = true → words.contains (decimal n) = false := by
    intro words hwords
    rw [contains_eq_mem, decide_eq_false_iff_not]
    intro hmem
    have := all_eq_true.1 hwords _ hmem
    exact hne _ (by simpa using this) rfl
  rw [word?, hnone _ (by decide), hnone _ (by decide), hnone _ (by decide), hnone _ (by decide),
    hnone _ (by decide), hnone _ (by decide)]
  rfl

/-- The digits of a number are no date. -/
theorem isTimestamp_decimal (n : Nat) : isTimestamp (decimal n).toList = false := by
  rw [isTimestamp, takeWhile_eq_self_iff.2 (isDigit_decimal n)]
  by_cases hlength : (decimal n).toList.length = 4
  · have hrest : (decimal n).toList.drop 4 = [] := drop_eq_nil_of_le (by omega)
    have hdate : Timestamp.date? (decimal n).toList = none := by
      rw [Timestamp.date?, hrest]
      cases natOf? 10 ((decimal n).toList.take 4) <;> rfl
    rw [hdate, Bool.and_eq_false_iff]
    exact .inr rfl
  · rw [beq_eq_false_iff_ne.2 hlength]
    rfl

theorem magnitude?_decimal (n : Nat) : magnitude? (decimal n).toList = some n := by
  rcases Nat.eq_zero_or_pos n with rfl | hpos
  · rfl
  · obtain ⟨c, cs, hcs, -⟩ := exists_digit n
    have hc : c ≠ '0' := by
      rintro rfl
      have hhead := head_toDigits hpos
      rw [← String.toList_ofList (l := Nat.toDigits 10 n)] at hhead
      exact hhead (by show (decimal n).toList.head? = _; rw [hcs]; rfl)
    have hread := natOf?_decimal n
    rw [hcs] at hread ⊢
    rw [magnitude?]
    · exact hread
    · exact fun _ _ _ heq => hc (cons.inj heq).1
    · exact fun _ heq => hc (cons.inj heq).1

/-- **The text of a number is that number.** -/
theorem ofPlainWith_decimal (times : Bool) (h : n < Number.signedLimit) :
    ofPlainWith times (decimal n) = .integer n := by
  obtain ⟨c, cs, hcs, hc⟩ := exists_digit n
  have hdot : c ≠ '.' := by
    rintro rfl
    exact absurd hc (by decide)
  have hplain : (c :: cs).filter (· != '_') = c :: cs := by
    rw [← hcs, filter_eq_self]
    intro d hd
    have hd' := isDigit_decimal n d hd
    have hne : d ≠ '_' := by
      rintro rfl
      exact absurd hd' (by decide)
    simpa using hne
  have hsign : sign (c :: cs) = (false, c :: cs) := by
    have hminus : c ≠ '-' := by
      rintro rfl
      exact absurd hc (by decide)
    have hplus : c ≠ '+' := by
      rintro rfl
      exact absurd hc (by decide)
    rw [sign]
    · exact fun _ heq => hminus (cons.inj heq).1
    · exact fun _ heq => hplus (cons.inj heq).1
  have hinteger : integer? (c :: cs) = some (n : Int) := by
    rw [integer?, hsign]
    simp only
    rw [← hcs, magnitude?_decimal]
    simp [signed?, h]
  have htime : isTimestamp (c :: cs) = false := hcs ▸ isTimestamp_decimal n
  rw [ofPlainWith, word?_decimal, hcs]
  simp only
  rw [if_neg hdot, if_pos (.inr (.inr hc)), htime, Bool.and_false, number?, hplain, hinteger]
  rfl

theorem scalarTag_decimal (h : n < Number.signedLimit) : scalarTag true (decimal n) = intTag := by
  have hmerge : decimal n ≠ "<<" := by
    intro heq
    obtain ⟨c, cs, hcs, hc⟩ := exists_digit n
    rw [heq] at hcs
    obtain ⟨rfl, -⟩ := cons.inj hcs
    exact absurd hc (by decide)
  rw [scalarTag, if_neg (by decide), if_neg hmerge, ofPlain, ofPlainWith_decimal true h]
  rfl

end Decimal

/-! ### Texts and keys -/

/-- A text written in its style is a text, or asks to merge. -/
theorem scalarTag_text (s : String) :
    scalarTag (isPlainStyle s) s = strTag ∨ scalarTag (isPlainStyle s) s = mergeTag := by
  cases hplain : isPlainStyle s with
  | false => exact .inl rfl
  | true =>
    by_cases hmerge : s = "<<"
    · exact .inr (by rw [scalarTag, if_neg (by decide), if_pos hmerge])
    · have hreads := readsAsText_of_isPlainStyle hplain
      rw [readsAsText, Bool.and_eq_true, Bool.and_eq_true] at hreads
      exact .inl (by rw [scalarTag, if_neg (by decide), if_neg hmerge]; exact beq_iff_eq.1 hreads.1.1)

theorem scalarTag_key {key : String} (h : isKey key = true) (isPlain : Bool) : scalarTag isPlain key = strTag := by
  cases isPlain with
  | false => rfl
  | true =>
    have hmerge : key ≠ "<<" := by
      rintro rfl
      exact absurd h (by decide)
    rw [scalarTag, if_neg (by decide), if_neg hmerge]
    exact tag_of_isKey h

end ServiceCompiler.Document
