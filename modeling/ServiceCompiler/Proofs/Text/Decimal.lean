import ServiceCompiler.Proofs.Naming.Fresh

namespace ServiceCompiler.Text

/-!
# Reading decimal texts

The text of a number is read back as that number.
-/

theorem digitValue?_of_isDigit {c : Char} (h : c.isDigit) : digitValue? c = some (c.toNat - 48) := by
  have hrange : '0' ≤ c ∧ c ≤ '9' := by simpa [Char.isDigit, Char.le_def] using h
  rw [digitValue?, if_pos hrange]
  rfl

theorem toNat_of_isDigit {c : Char} (h : c.isDigit) : 48 ≤ c.toNat ∧ c.toNat ≤ 57 := by
  simpa [Char.isDigit, Char.le_def, UInt32.le_iff_toNat_le] using h

/-- One more digit. -/
def addDigit (base : Nat) (acc : Option Nat) (c : Char) : Option Nat := do
  let n ← acc
  let d ← digitValue? c
  if d < base then some (n * base + d) else none

/-- Reading digits after others were read. -/
theorem foldl_addDigit {cs : List Char} (hcs : ∀ c ∈ cs, c.isDigit) (n : Nat) :
    cs.foldl (addDigit 10) (some n) = some (Nat.ofDigitChars 10 cs n) := by
  induction cs generalizing n with
  | nil => rfl
  | cons c cs ih =>
    have hc : c.isDigit := hcs c List.mem_cons_self
    have hrange := toNat_of_isDigit hc
    have hadd : addDigit 10 (some n) c = some (10 * n + (c.toNat - 48)) := by
      show (digitValue? c).bind _ = _
      rw [digitValue?_of_isDigit hc]
      show ite _ _ _ = _
      rw [if_pos (by omega), Nat.mul_comm]
    rw [List.foldl_cons, hadd, ih fun d hd => hcs d (List.mem_cons_of_mem c hd)]
    rfl

/-- **The text of a number is read back.** -/
theorem natOf?_decimal (n : Nat) : natOf? 10 (decimal n).toList = some n := by
  have hdigits : ∀ c ∈ (decimal n).toList, c.isDigit := fun c hc => isDigit_of_mem_decimal hc
  rw [natOf?, if_neg (by simpa using decimal_ne_empty n)]
  show (decimal n).toList.foldl (addDigit 10) (some 0) = _
  rw [foldl_addDigit hdigits, decimal, String.toList_ofList, Nat.ofDigitChars_ten_toDigits]

end ServiceCompiler.Text
