import ServiceCompiler.Proofs.Naming.Fresh
import ServiceCompiler.Proofs.Text.Pieces

namespace ServiceCompiler

open List

/-!
# What identifiers are made of

An identifier is told apart from what follows it in a call or a declaration by the parenthesis behind
it.  This works because no identifier holds one: names are joined from letters and digits
(`paren_notMem_joinedName`), and neither a change of case nor a number brings one in.
-/

/-! ### Case maps and parentheses -/

namespace Text

/-- A code point that is moved by a table lands above the start of one of the images. -/
theorem exists_target_le_of_shiftIn? {ranges : List (Nat × Nat × Nat × Nat)} {n m : Nat}
    (h : shiftIn? ranges n = some m) : ∃ range ∈ ranges, range.2.2.2 ≤ m := by
  obtain ⟨⟨lo, hi, stride, target⟩, hmem, hrange⟩ := exists_of_findSome?_eq_some h
  refine ⟨_, hmem, ?_⟩
  dsimp only at hrange
  split at hrange
  · obtain rfl := Option.some.inj hrange
    exact Nat.le_add_right _ _
  · simp at hrange

/-- A code point above that of the parenthesis does not stand for it. -/
theorem ofNat_ne_paren {n : Nat} (h : 41 ≤ n) : Char.ofNat n ≠ '(' := by
  intro heq
  have hval : (Char.ofNat n).toNat = 40 := by rw [heq]; rfl
  by_cases hvalid : n.isValidChar
  · have hn : (Char.ofNat n).toNat = n := by
      rw [Char.ofNat, dif_pos hvalid]
      rfl
    omega
  · -- a number that is no code point stands for the character with code zero
    have hzero : (Char.ofNat n).toNat = 0 := by
      rw [Char.ofNat, dif_neg hvalid]
      rfl
    omega

theorem shifted_ne_paren {ranges : List (Nat × Nat × Nat × Nat)}
    (hranges : ∀ range ∈ ranges, 41 ≤ range.2.2.2) {c : Char} (hc : c ≠ '(') :
    ((shiftIn? ranges c.toNat).map Char.ofNat).getD c ≠ '(' := by
  cases h : shiftIn? ranges c.toNat with
  | none => exact hc
  | some m =>
    obtain ⟨range, hmem, hle⟩ := exists_target_le_of_shiftIn? h
    exact ofNat_ne_paren (Nat.le_trans (hranges range hmem) hle)

/-- No other character has a parenthesis as its capital. -/
theorem toUpper_ne_paren {c : Char} (hc : c ≠ '(') : toUpper c ≠ '(' := by
  rw [toUpper]
  split
  · split
    · rename_i hsmall
      have : 97 ≤ c.toNat := by simpa [Char.le_def, UInt32.le_iff_toNat_le] using hsmall.1
      exact ofNat_ne_paren (by omega)
    · exact hc
  · exact shifted_ne_paren (by decide +kernel) hc

/-- No other character has a parenthesis as its small form. -/
theorem toLower_ne_paren {c : Char} (hc : c ≠ '(') : toLower c ≠ '(' := by
  rw [toLower]
  split
  · rw [asciiLower]
    split
    · rename_i hcapital
      have : 65 ≤ c.toNat := by simpa [Char.le_def, UInt32.le_iff_toNat_le] using hcapital.1
      exact ofNat_ne_paren (by omega)
    · exact hc
  · exact shifted_ne_paren (by decide +kernel) hc

end Text

/-! ### Names without parentheses -/

namespace Naming

theorem paren_notMem_nameWord {word : List Char} (h : '(' ∉ word) : '(' ∉ nameWord word := by
  have hne : ∀ c ∈ word, c ≠ '(' := fun c hc heq => h (heq ▸ hc)
  rw [nameWord]
  split
  · rw [mem_map]
    rintro ⟨c, hc, heq⟩
    exact Text.toUpper_ne_paren (hne c hc) heq
  · cases word with
    | nil => simp [capitalized]
    | cons c cs =>
      rw [capitalized, mem_cons, mem_map]
      rintro (heq | ⟨d, hd, heq⟩)
      · exact Text.toUpper_ne_paren (hne c mem_cons_self) heq.symm
      · have hd' := hne d (mem_cons_of_mem c hd)
        split at heq
        · exact hd' heq
        · exact Text.toLower_ne_paren hd' heq

/-- **Joined names hold no parenthesis**: they are made of runs of letters and digits. -/
theorem paren_notMem_joinedName (s : String) : '(' ∉ (joinedName s).toList := by
  rw [joinedName, String.toList_ofList, mem_flatMap]
  rintro ⟨word, hword, hmem⟩
  refine paren_notMem_nameWord (fun hparen => ?_) hmem
  have hclass := ((Text.of_mem_runs hword).2 '(' hparen).1
  revert hclass
  decide

theorem paren_notMem_registerName (segment : String) : '(' ∉ (registerName segment).toList := by
  rw [registerName]
  have := paren_notMem_joinedName segment
  split
  · decide
  · rw [String.toList_append, mem_append]
    exact fun h => h.elim (by decide) this

theorem paren_notMem_handlerName (r : Route) : '(' ∉ (handlerName r).toList := by
  have hplain := paren_notMem_joinedName r.collection
  have hsingular := paren_notMem_joinedName (singular r.collection)
  have hcollection : '(' ∉
      (if joinedName r.collection = "" then "Root" else joinedName r.collection).toList := by
    split
    · decide
    · exact hplain
  rw [handlerName]
  split <;> rw [String.toList_append, mem_append]
  · exact fun h => h.elim (by decide) hcollection
  · exact fun h => h.elim (by decide) hsingular
  · exact fun h => h.elim (by decide) hsingular
  · exact fun h => h.elim (by decide) hcollection

end Naming

theorem paren_notMem_numbered {name : String} (h : '(' ∉ name.toList) (k : Nat) : '(' ∉ (numbered name k).toList := by
  rw [numbered]
  split
  · exact h
  · rw [String.toList_append, mem_append]
    rintro (hname | hdigit)
    · exact h hname
    · have := Text.isDigit_of_mem_decimal hdigit
      revert this
      decide

theorem NamedGroup.Named.paren_notMem {g : NamedGroup} (hg : g.Named) : ∀ x ∈ g.identifiers, '(' ∉ x.toList := by
  intro x hx
  rcases mem_cons.1 hx with rfl | hx
  · obtain ⟨k, hk⟩ := hg.register_eq
    rw [hk]
    exact paren_notMem_numbered (Naming.paren_notMem_registerName g.segment) k
  · obtain ⟨r, -, k, hk⟩ := hg.handler_eq x hx
    rw [hk]
    exact paren_notMem_numbered (Naming.paren_notMem_handlerName r) k

/-- The function that registers a group has a name with a capital in front. -/
theorem NamedGroup.Named.head_register {g : NamedGroup} (hg : g.Named) : g.register.toList.head? = some 'R' := by
  obtain ⟨k, hk⟩ := hg.register_eq
  have hname : (Naming.registerName g.segment).toList.head? = some 'R' := by
    rw [Naming.registerName, String.toList_append]
    rfl
  rw [hk, numbered]
  split
  · exact hname
  · rw [String.toList_append, head?_append, hname]
    rfl

end ServiceCompiler
