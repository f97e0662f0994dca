import Mathlib.Data.List.TakeDrop
import ServiceCompiler.Text.Octets

namespace ServiceCompiler.Text.Octets

open List

/-!
# Cutting octets

Octets are cut at ASCII characters.  What cuts give back, and which cuts find the place again where two parts were put
together, is said through `hasChar`.

* `hasChar_ofString` — the octets of a text hold an ASCII character only where the text does.
* `cutAt?_eq_some_iff`, `cutLast?_eq_some_iff` — a cut is at the first or at the last occurrence, and at no other.
* `splitOn_eq_splitOnP` — the pieces are those of the library, so that its laws about joining apply.
* `splitOn_intercalate` — parts that are joined are cut into the pieces of each.
-/

variable {b : UInt8}

/-! ### Occurrences -/

@[simp] theorem hasChar_cons (c : Char) (b : UInt8) (octets : Octets) :
    hasChar c (b :: octets) = (isChar c b || hasChar c octets) := rfl

@[simp] theorem hasChar_append (c : Char) (front back : Octets) :
    hasChar c (front ++ back) = (hasChar c front || hasChar c back) :=
  any_append

theorem hasChar_reverse (c : Char) (octets : Octets) : hasChar c octets.reverse = hasChar c octets :=
  any_reverse

theorem hasChar_eq_false_iff {c : Char} {octets : Octets} : hasChar c octets = false ↔ ∀ b ∈ octets, isChar c b = false := by
  simp [hasChar]

theorem mem_intercalate_singleton {α : Type} {x y : α} {parts : List (List α)} (h : x ∈ [y].intercalate parts) :
    x = y ∨ ∃ part ∈ parts, x ∈ part := by
  induction parts with
  | nil => cases h
  | cons part parts ih =>
    cases parts with
    | nil => exact .inr ⟨part, mem_cons_self, by simpa using h⟩
    | cons next parts =>
      rw [intercalate_cons_cons] at h
      simp only [mem_append, mem_singleton] at h
      rcases h with (h | h) | h
      · exact .inr ⟨part, mem_cons_self, h⟩
      · exact .inl h
      · exact (ih h).imp_right fun ⟨p, hp, hx⟩ => ⟨p, mem_cons_of_mem _ hp, hx⟩

theorem hasChar_intercalate {c : Char} (hb : isChar c b = false) {parts : List Octets}
    (h : ∀ part ∈ parts, hasChar c part = false) : hasChar c ([b].intercalate parts) = false := by
  refine hasChar_eq_false_iff.2 fun x hx => ?_
  rcases mem_intercalate_singleton hx with rfl | ⟨part, hpart, hx⟩
  · exact hb
  · exact hasChar_eq_false_iff.1 (h part hpart) x hx

/-- An octet of a character is the character itself, or no ASCII. -/
theorem toNat_of_mem_utf8EncodeChar {d : Char} (h : b ∈ String.utf8EncodeChar d) :
    b.toNat = d.toNat ∨ 128 ≤ b.toNat := by
  have hlarge : ∀ n : Nat, 128 ≤ n → n < 256 → b = UInt8.ofNat n → b.toNat = d.toNat ∨ 128 ≤ b.toNat := by
    rintro n hlow hhigh rfl
    refine .inr ?_
    rw [UInt8.toNat_ofNat']
    omega
  simp only [String.utf8EncodeChar] at h
  split at h
  · have hvalue := congrArg UInt8.toNat (mem_singleton.1 h)
    rw [UInt8.toNat_ofNat'] at hvalue
    refine .inl (hvalue.trans (Nat.mod_eq_of_lt ?_))
    omega
  · split at h
    · simp only [mem_cons, not_mem_nil, or_false] at h
      rcases h with h | h <;> exact hlarge _ (by omega) (by omega) h
    · split at h
      · simp only [mem_cons, not_mem_nil, or_false] at h
        rcases h with h | h | h <;> exact hlarge _ (by omega) (by omega) h
      · simp only [mem_cons, not_mem_nil, or_false] at h
        rcases h with h | h | h | h <;> exact hlarge _ (by omega) (by omega) h

/-- ASCII characters are found among the octets of a text only when they are in the text. -/
theorem hasChar_ofString {c : Char} (hc : c.toNat < 128) {s : String} (h : c ∉ s.toList) :
    hasChar c (ofString s) = false := by
  refine hasChar_eq_false_iff.2 fun b hb => ?_
  obtain ⟨d, hd, hb⟩ := mem_flatMap.1 hb
  rw [isChar, beq_eq_false_iff_ne]
  intro heq
  rcases toNat_of_mem_utf8EncodeChar hb with hsame | hlarge
  · exact h (Char.toNat_inj.1 (heq.symm.trans hsame) ▸ hd)
  · omega

/-! ### Cuts at one place -/

variable {c : Char} {octets front back : Octets}

theorem cutAt?_cons (c : Char) (b : UInt8) (octets : Octets) :
    cutAt? c (b :: octets) =
      if isChar c b then some ([], octets) else (cutAt? c octets).map fun parts => (b :: parts.1, parts.2) := by
  rw [cutAt?, cutAt?, span_eq_takeWhile_dropWhile, span_eq_takeWhile_dropWhile, takeWhile_cons, dropWhile_cons]
  cases hb : isChar c b with
  | true => rfl
  | false => cases octets.dropWhile (!isChar c ·) <;> rfl

theorem cutAt?_eq_none_iff : cutAt? c octets = none ↔ hasChar c octets = false := by
  induction octets with
  | nil => exact iff_of_true rfl rfl
  | cons b octets ih => cases hb : isChar c b <;> simp [cutAt?_cons, hb, ih]

/-- A cut is at the first occurrence. -/
theorem cutAt?_eq_some_iff :
    cutAt? c octets = some (front, back) ↔
      hasChar c front = false ∧ ∃ b, isChar c b = true ∧ octets = front ++ b :: back := by
  induction octets generalizing front with
  | nil => simp [cutAt?, span_eq_takeWhile_dropWhile]
  | cons b octets ih =>
    cases hb : isChar c b with
    | true =>
      rw [cutAt?_cons, hb, if_pos rfl, Option.some_inj, Prod.mk.injEq]
      constructor
      · rintro ⟨rfl, rfl⟩
        exact ⟨rfl, b, hb, rfl⟩
      · rintro ⟨hfront, x, -, heq⟩
        cases front with
        | nil => exact ⟨rfl, (cons.inj heq).2⟩
        | cons y front =>
          rw [← (cons.inj heq).1, hasChar_cons, hb] at hfront
          cases hfront
    | false =>
      rw [cutAt?_cons, hb, if_neg Bool.false_ne_true, Option.map_eq_some_iff]
      constructor
      · rintro ⟨⟨first, rest⟩, hcut, heq⟩
        obtain ⟨rfl, rfl⟩ := Prod.mk.inj heq
        obtain ⟨hfirst, x, hx, rfl⟩ := ih.1 hcut
        exact ⟨by rw [hasChar_cons, hb, hfirst, Bool.false_or], x, hx, rfl⟩
      · rintro ⟨hfront, x, hx, heq⟩
        cases front with
        | nil =>
          rw [← (cons.inj heq).1, hb] at hx
          cases hx
        | cons y front =>
          obtain ⟨rfl, rfl⟩ := cons.inj heq
          rw [hasChar_cons, hb, Bool.false_or] at hfront
          exact ⟨(front, back), ih.2 ⟨hfront, x, hx, rfl⟩, rfl⟩

theorem cutAt?_append_cons (hfront : hasChar c front = false) (hb : isChar c b = true) (back : Octets) :
    cutAt? c (front ++ b :: back) = some (front, back) :=
  cutAt?_eq_some_iff.2 ⟨hfront, b, hb, rfl⟩

/-- The last cut is the first one from the other end. -/
theorem cutLast?_eq_cutAt?_reverse (c : Char) (octets : Octets) :
    cutLast? c octets = (cutAt? c octets.reverse).map fun parts => (parts.2.reverse, parts.1.reverse) := by
  rw [cutLast?, cutAt?]
  split <;> rfl

theorem cutLast?_eq_none_iff : cutLast? c octets = none ↔ hasChar c octets = false := by
  rw [cutLast?_eq_cutAt?_reverse, Option.map_eq_none_iff, cutAt?_eq_none_iff, hasChar_reverse]

/-- A cut from the end is at the last occurrence. -/
theorem cutLast?_eq_some_iff :
    cutLast? c octets = some (front, back) ↔
      hasChar c back = false ∧ ∃ b, isChar c b = true ∧ octets = front ++ b :: back := by
  have hreverse : (cutAt? c octets.reverse).map (fun parts => (parts.2.reverse, parts.1.reverse)) = some (front, back) ↔
      cutAt? c octets.reverse = some (back.reverse, front.reverse) := by
    rw [Option.map_eq_some_iff]
    constructor
    · rintro ⟨⟨first, rest⟩, hcut, heq⟩
      obtain ⟨rfl, rfl⟩ := Prod.mk.inj heq
      rwa [reverse_reverse, reverse_reverse]
    · exact fun hcut => ⟨_, hcut, by rw [reverse_reverse, reverse_reverse]⟩
  rw [cutLast?_eq_cutAt?_reverse, hreverse, cutAt?_eq_some_iff, hasChar_reverse]
  refine and_congr_right fun _ => exists_congr fun b => and_congr_right fun _ => ?_
  rw [reverse_eq_iff]
  simp

theorem cutLast?_append_cons (front : Octets) (hb : isChar c b = true) (hback : hasChar c back = false) :
    cutLast? c (front ++ b :: back) = some (front, back) :=
  cutLast?_eq_some_iff.2 ⟨hback, b, hb, rfl⟩

/-! ### Pieces -/

theorem splitOn_eq_splitOnP (c : Char) (octets : Octets) : splitOn c octets = octets.splitOnP (isChar c) := by
  induction octets with
  | nil => rfl
  | cons b octets ih =>
    rw [splitOn, splitOnP_cons_eq_if_modifyHead, ih]
    split
    · rfl
    · cases hpieces : octets.splitOnP (isChar c) with
      | nil => exact absurd hpieces (splitOnP_ne_nil _ _)
      | cons piece pieces => rfl

theorem splitOn_of_hasChar (h : hasChar c octets = false) : splitOn c octets = [octets] := by
  rw [splitOn_eq_splitOnP, splitOnP_eq_singleton (hasChar_eq_false_iff.1 h)]

theorem splitOn_append_cons (hb : isChar c b = true) (front back : Octets) :
    splitOn c (front ++ b :: back) = splitOn c front ++ splitOn c back := by
  simp only [splitOn_eq_splitOnP, splitOnP_append_cons _ _ hb]

/-- **Joined parts are cut into the pieces of each.** -/
theorem splitOn_intercalate (hb : isChar c b = true) {parts : List Octets} (hparts : parts ≠ []) :
    splitOn c ([b].intercalate parts) = parts.flatMap (splitOn c) := by
  induction parts with
  | nil => exact absurd rfl hparts
  | cons part parts ih =>
    cases parts with
    | nil => simp
    | cons next parts =>
      rw [intercalate_cons_cons, append_assoc, singleton_append, splitOn_append_cons hb, ih (by simp)]
      exact flatMap_cons.symm

/-- Parts without the character are found again. -/
theorem splitOn_intercalate_of_hasChar (hb : isChar c b = true) {parts : List Octets} (hparts : parts ≠ [])
    (h : ∀ part ∈ parts, hasChar c part = false) : splitOn c ([b].intercalate parts) = parts := by
  rw [splitOn_intercalate hb hparts]
  clear hparts
  induction parts with
  | nil => rfl
  | cons part parts ih =>
    obtain ⟨hpart, hparts⟩ := forall_mem_cons.1 h
    rw [flatMap_cons, splitOn_of_hasChar hpart, ih hparts, singleton_append]

/-- Pieces hold no other octets than the text. -/
theorem mem_of_mem_splitOn {piece : Octets} (h : piece ∈ splitOn c octets) (hb : b ∈ piece) :
    b ∈ octets ∧ isChar c b = false := by
  induction octets generalizing piece with
  | nil =>
    rw [mem_singleton.1 h] at hb
    cases hb
  | cons x octets ih =>
    rw [splitOn] at h
    split at h
    · rcases mem_cons.1 h with rfl | h
      · cases hb
      · exact (ih h hb).imp_left (mem_cons_of_mem x)
    · rename_i hx
      split at h
      · rename_i hnil
        exact absurd hnil (by rw [splitOn_eq_splitOnP]; exact splitOnP_ne_nil _ _)
      · rename_i first rest hrest
        rcases mem_cons.1 h with rfl | h
        · rcases mem_cons.1 hb with rfl | hb
          · exact ⟨mem_cons_self, by simpa using hx⟩
          · exact (ih (hrest ▸ mem_cons_self) hb).imp_left (mem_cons_of_mem x)
        · exact (ih (hrest ▸ mem_cons_of_mem _ h) hb).imp_left (mem_cons_of_mem x)

end ServiceCompiler.Text.Octets
