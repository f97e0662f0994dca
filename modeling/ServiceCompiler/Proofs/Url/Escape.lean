import ServiceCompiler.Proofs.Text.Octets
import ServiceCompiler.Url.Basic

namespace ServiceCompiler.Url

open Text (Octets)
open Text.Octets List

/-!
# Escapes are undone

* `Component.IsFree.unescape_escape` — what is escaped in a component is read back there, hosts apart.
* `Component.unescape?_of_plain` — octets that need no escape are read as they are, also in hosts.
* `Component.forall_mem_escape` — which octets can stand in escaped text; hence `Component.hasChar_escape`, that a
  separator cannot.
-/

theorem hexValue?_hexDigit : ∀ n < 16, hexValue? (hexDigit n) = some n := by decide

namespace Component

variable {component : Component}

/-- An octet that is not the mark of an escape stands for itself, or for a blank. -/
theorem unescape_cons {b : UInt8} (hmark : b ≠ 0x25) (haccepts : component.accepts b = true) (rest : Octets) :
    component.unescape (b :: rest) =
      (component.unescape rest).map ((if b = 0x2b ∧ component = .query then 0x20 else b) :: ·) := by
  conv_lhs => unfold unescape
  split
  · rename_i heq
    cases heq
  · rename_i heq
    exact absurd (cons.inj heq).1 hmark
  · rename_i heq
    obtain ⟨rfl, rfl⟩ := cons.inj heq
    rw [if_neg hmark, if_pos haccepts]

theorem unescape_percent {hi lo value : UInt8} (h : component.unescapeCode? hi lo = some value) (rest : Octets) :
    component.unescape (0x25 :: hi :: lo :: rest) = (component.unescape rest).map (value :: ·) := by
  rw [unescape, h]

/-- A component in which every octet may be escaped. -/
def IsFree (component : Component) : Prop := component ≠ .host ∧ component ≠ .zone

theorem escapes_percent (component : Component) : component.escapes 0x25 = true := by
  cases component <;> decide

theorem IsFree.accepts (h : component.IsFree) (b : UInt8) : component.accepts b = true := by
  unfold Component.accepts
  split
  · exact absurd rfl h.1
  · exact absurd rfl h.2
  · rfl

theorem IsFree.unescapeCode? (h : component.IsFree) (b : UInt8) :
    component.unescapeCode? (hexDigit (b.toNat / 16)) (hexDigit (b.toNat % 16)) = some b := by
  have hlt := b.toNat_lt
  have hvalue : b.toNat / 16 * 16 + b.toNat % 16 = b.toNat := Nat.div_add_mod' _ _
  rw [Component.unescapeCode?, hexValue?_hexDigit _ (by omega), hexValue?_hexDigit _ (by omega), Option.bind_eq_bind,
    Option.bind_some, Option.bind_some]
  dsimp only
  rw [hvalue]
  cases component <;> simp_all [IsFree]

theorem IsFree.unescape_escapeOctet (h : component.IsFree) (b : UInt8) (rest : Octets) :
    component.unescape (component.escapeOctet b ++ rest) = (component.unescape rest).map (b :: ·) := by
  unfold escapeOctet
  split
  · rename_i hblank
    exact (unescape_cons (by decide) (h.accepts _) rest).trans (by rw [if_pos ⟨rfl, hblank.2⟩, hblank.1])
  · split
    · exact unescape_percent (h.unescapeCode? b) rest
    · rename_i hplain
      have hmark : b ≠ 0x25 := by
        rintro rfl
        exact hplain (escapes_percent component)
      have hplus : ¬ (b = 0x2b ∧ component = .query) := by
        rintro ⟨rfl, rfl⟩
        exact hplain (by decide)
      exact (unescape_cons hmark (h.accepts b) rest).trans (by rw [if_neg hplus])

/-- **Escaped octets are read back.** -/
theorem IsFree.unescape_escape (h : component.IsFree) (octets : Octets) :
    component.unescape (component.escape octets) = .ok octets := by
  induction octets with
  | nil => rfl
  | cons b octets ih =>
    show component.unescape (component.escapeOctet b ++ component.escape octets) = _
    rw [h.unescape_escapeOctet, ih]
    rfl

/-- Octets that are not escaped are no marks, and a component that escapes a character holds it nowhere else. -/
theorem hasChar_of_plain {octets : Octets} (hplain : ∀ b ∈ octets, component.escapes b = false) {c : Char}
    (hc : isChar c (ascii c) = true) (hescapes : component.escapes (ascii c) = true) : hasChar c octets = false := by
  refine hasChar_eq_false_iff.2 fun b hb => ?_
  by_contra hne
  have heq : b = ascii c := by
    simp only [isChar, beq_iff_eq, Bool.not_eq_false] at hne hc
    exact UInt8.toNat_inj.1 (hne.trans hc.symm)
  rw [← heq, hplain b hb] at hescapes
  cases hescapes

theorem escape_of_plain {octets : Octets} (hplain : ∀ b ∈ octets, component.escapes b = false) :
    component.escape octets = octets := by
  induction octets with
  | nil => rfl
  | cons b octets ih =>
    obtain ⟨hb, hrest⟩ := forall_mem_cons.1 hplain
    have hblank : ¬ (b = 0x20 ∧ component = .query) := by
      rintro ⟨rfl, rfl⟩
      exact absurd hb (by decide)
    show component.escapeOctet b ++ component.escape octets = _
    rw [ih hrest, escapeOctet, if_neg hblank, if_neg (by simp [hb]), singleton_append]

theorem unescape?_of_plain {octets : Octets} (hquery : component ≠ .query)
    (hplain : ∀ b ∈ octets, component.escapes b = false) : component.unescape? octets = some octets := by
  have hread : component.unescape octets = .ok octets := by
    induction octets with
    | nil => rfl
    | cons b octets ih =>
      obtain ⟨hb, hrest⟩ := forall_mem_cons.1 hplain
      have hmark : b ≠ 0x25 := by
        rintro rfl
        rw [escapes_percent] at hb
        cases hb
      have haccepts : component.accepts b = true := by cases component <;> simp_all [accepts]
      rw [unescape_cons hmark haccepts, if_neg fun h => hquery h.2, ih hrest]
      rfl
  rw [unescape?, hread]
  rfl

/-- What holds of the marks of escapes, their digits and the octets that are not escaped holds of all that is written. -/
theorem forall_mem_escape {P : UInt8 → Prop} [DecidablePred P]
    (hmarks : ([0x2b, 0x25] ++ (range 16).map hexDigit).all (P ·) = true)
    (hplain : ∀ b, component.escapes b = false → P b) {octets : Octets} : ∀ b ∈ component.escape octets, P b := by
  intro b hb
  obtain ⟨x, -, hb⟩ := mem_flatMap.1 hb
  have hlt := x.toNat_lt
  have hmark : ∀ b ∈ [0x2b, 0x25] ++ (range 16).map hexDigit, P b := fun b hb =>
    of_decide_eq_true (all_eq_true.1 hmarks b hb)
  have hdigit : ∀ n < 16, P (hexDigit n) := fun n hn =>
    hmark _ (mem_append_right _ (mem_map_of_mem (mem_range.2 hn)))
  unfold escapeOctet at hb
  split at hb
  · exact mem_singleton.1 hb ▸ hmark _ (by simp)
  · split at hb
    · rcases mem_cons.1 hb with rfl | hb
      · exact hmark _ (by simp)
      · rcases mem_cons.1 hb with rfl | hb
        · exact hdigit _ (by omega)
        · exact mem_singleton.1 hb ▸ hdigit _ (by omega)
    · rename_i hx
      exact mem_singleton.1 hb ▸ hplain x (by simpa using hx)

/-- A separator that is escaped is not found in what is written. -/
theorem hasChar_escape {c : Char}
    (hmarks : ([0x2b, 0x25] ++ (range 16).map hexDigit).all (isChar c · = false) = true)
    (hc : isChar c (ascii c) = true) (hescapes : component.escapes (ascii c) = true) (octets : Octets) :
    hasChar c (component.escape octets) = false := by
  refine hasChar_eq_false_iff.2 (forall_mem_escape hmarks fun b hb => ?_)
  exact hasChar_eq_false_iff.1 (hasChar_of_plain (forall_mem_singleton.2 hb) hc hescapes) b mem_cons_self

theorem toNat_of_escapes {b : UInt8} (h : component.escapes b = false) : 0x20 < b.toNat ∧ b.toNat < 0x7f := by
  by_contra hrange
  have hclass : isLetter b = false ∧ isDigit b = false := by
    simp only [isLetter, isDigit, UInt8.le_iff_toNat_le]
    simp
    omega
  have hother : ∀ chars : String, (∀ c ∈ chars.toList, 0x20 < c.toNat ∧ c.toNat < 0x7f) → isOneOf chars b = false := by
    intro chars hchars
    simp only [isOneOf, any_eq_false, isChar, beq_iff_eq]
    intro c hc heq
    exact hrange (heq ▸ hchars c hc)
  simp [escapes, hclass, hother "!$&'()*+,;=:[]<>\"" (by simp), hother "-_.~" (by simp),
    hother "$&+,/:;=?@" (by simp), hother "!()*" (by simp)] at h

end Component

theorem isUserInfoOctet_of_escapes {b : UInt8} (h : Component.userInfo.escapes b = false) : isUserInfoOctet b = true := by
  by_contra hnot
  simp [isUserInfoOctet, isOneOf] at hnot
  simp [Component.escapes, isOneOf, hnot] at h
  simp [h.2] at h

end ServiceCompiler.Url
