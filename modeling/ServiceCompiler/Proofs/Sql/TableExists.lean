import Mathlib.Algebra.Group.Int.Defs
import Mathlib.Algebra.Group.Nat.Defs
import ServiceCompiler.Proofs.Text.Decimal
import ServiceCompiler.Proofs.Text.Pieces
import ServiceCompiler.Sql.Migrator

namespace ServiceCompiler

open Text List

/-!
# Which refusals say that a table exists

A refusal of a database comes to the migrator under labels and joined to other failures.  It is looked for in three
ways: by the number of one engine anywhere below the failure, by the number of the other engine along single causes, and by
words in the text.

* `Failure.Layer`, `Failure.wrapAll` — a failure under any finite nesting of labels and joins.
* `Failure.refusal?_causes_wrapAll` — the one search finds the refusal below all layers.
* `Failure.refusal?_lineage_wrapAll` — the other one does not see through a join.
* `Failure.hasTableExistsWords_wrapAll` — layers without the words add none, also where two texts meet.
* `Failure.isTableExists_wrapAll_iff` — hence what is recognised: the one engine by the digits its number begins with, the
  other one by its number unless the refusal is joined to something.
-/

/-! ### Words and digits in a text -/

/-- What occurs in a text around a separator that it does not hold itself occurs on one side of it. -/
theorem infix_append_cons_iff {α : Type} {mark front back : List α} {c : α} (hc : c ∉ mark) :
    mark <:+: front ++ c :: back ↔ mark <:+: front ∨ mark <:+: back := by
  induction front with
  | nil =>
    rw [nil_append, infix_cons_iff]
    cases mark with
    | nil => simp
    | cons d mark =>
      have hne : d ≠ c := fun heq => hc (heq ▸ mem_cons_self)
      simp [cons_prefix_cons, hne]
  | cons d front ih =>
    -- An occurrence at the very beginning ends in front of the separator.
    have hstart : mark <+: d :: front ++ c :: back ↔ mark <+: d :: front := by
      refine ⟨fun h => ?_, fun h => h.trans (prefix_append _ _)⟩
      rcases prefix_or_prefix_of_prefix h (prefix_append (d :: front) (c :: back)) with hshort | hlong
      · exact hshort
      · obtain ⟨rest, rfl⟩ := hlong
        rw [prefix_append_right_inj] at h
        cases rest with
        | nil => simp
        | cons e rest =>
          obtain ⟨rfl, -⟩ := cons_prefix_cons.1 h
          exact absurd (mem_append_right _ mem_cons_self) hc
    rw [cons_append, infix_cons_iff, infix_cons_iff, ih, ← cons_append, hstart, or_assoc]

/-- The digits of a number begin with those of another one when it is what is left without some of the last digits. -/
theorem toDigits_prefix_iff {m n : Nat} (hm : 0 < m) :
    Nat.toDigits 10 m <+: Nat.toDigits 10 n ↔ ∃ k, n / 10 ^ k = m := by
  have hinj : ∀ n, Nat.toDigits 10 m = Nat.toDigits 10 n ↔ n = m := fun n =>
    ⟨fun h => by rw [← Nat.ofDigitChars_ten_toDigits (n := n), ← h, Nat.ofDigitChars_ten_toDigits], fun h => by rw [h]⟩
  -- Either no digit is left out, or the last one is among them.
  have hsplit : ∀ n, (∃ k, n / 10 ^ k = m) ↔ n = m ∨ ∃ k, n / 10 / 10 ^ k = m := by
    intro n
    simp only [Nat.div_div_eq_div_mul, ← Nat.pow_succ']
    constructor
    · rintro ⟨k, hk⟩
      cases k with
      | zero => exact .inl (by simpa using hk)
      | succ k => exact .inr ⟨k, hk⟩
    · rintro (rfl | ⟨k, hk⟩)
      · exact ⟨0, by simp⟩
      · exact ⟨k + 1, hk⟩
  induction n using Nat.strongRecOn with
  | ind n ih =>
    rw [hsplit, ← hinj]
    by_cases hn : n < 10
    · have hnone : ¬ ∃ k, n / 10 / 10 ^ k = m := by
        rintro ⟨k, hk⟩
        rw [Nat.div_eq_of_lt hn, Nat.zero_div] at hk
        omega
      rw [or_iff_left hnone, Nat.toDigits_of_lt_base hn, ← nil_append [n.digitChar], prefix_concat_iff,
        prefix_nil, or_iff_left Nat.toDigits_ne_nil]
    · have hrest : Nat.toDigits 10 m <+: Nat.toDigits 10 (n / 10) ↔ ∃ k, n / 10 / 10 ^ k = m := ih (n / 10) (by omega)
      rw [← hrest, Nat.toDigits_of_base_le (b := 10) (n := n) (by decide) (by omega), prefix_concat_iff]

theorem decimalInt_prefix_iff {m : Nat} (hm : 0 < m) {n : Int} :
    Nat.toDigits 10 m <+: (decimalInt n).toList ↔ ∃ k : Nat, n / 10 ^ k = m := by
  cases n with
  | ofNat n =>
    show Nat.toDigits 10 m <+: (decimal n).toList ↔ ∃ k : Nat, (n : Int) / 10 ^ k = m
    rw [decimal, String.toList_ofList, toDigits_prefix_iff hm]
    exact exists_congr fun k => by norm_cast
  | negSucc n =>
    have hnone : ¬ ∃ k : Nat, Int.negSucc n / 10 ^ k = m := by
      rintro ⟨k, hk⟩
      have hneg : Int.negSucc n / 10 ^ k < 0 := Int.ediv_neg_of_neg_of_pos (Int.negSucc_lt_zero n) (Int.pow_pos (by decide))
      omega
    refine iff_of_false ?_ hnone
    show ¬ Nat.toDigits 10 m <+: ("-" ++ decimal (n + 1)).toList
    rw [String.toList_append]
    intro h
    -- The text begins with the sign, which is no digit.
    cases hdigits : Nat.toDigits 10 m with
    | nil => exact Nat.toDigits_ne_nil hdigits
    | cons c cs =>
      rw [hdigits] at h
      obtain ⟨rfl, -⟩ := cons_prefix_cons.1 h
      have hdigit := Nat.isDigit_of_mem_toDigits (b := 10) (by decide) (by decide) (hdigits ▸ mem_cons_self)
      exact absurd hdigit (by decide)

namespace Failure

/-- Whether a text has the words of a refusal to create a table that exists. -/
def hasTableExistsWords (text : String) : Bool :=
  tableExistsWords.any fun words => contains words.toList text.toList

theorem hasTableExistsWords_iff {text : String} :
    hasTableExistsWords text = true ↔ ∃ words ∈ tableExistsWords, words.toList <:+: text.toList := by
  simp only [hasTableExistsWords, any_eq_true, contains_iff]

/-- The words are found in one of two texts around a character that is in none of them. -/
theorem hasTableExistsWords_around {c : Char} (hc : ∀ words ∈ tableExistsWords, c ∉ words.toList) {front back text : String}
    (htext : text.toList = front.toList ++ c :: back.toList) :
    hasTableExistsWords text = (hasTableExistsWords front || hasTableExistsWords back) := by
  rw [Bool.eq_iff_iff, Bool.or_eq_true]
  simp only [hasTableExistsWords_iff, htext]
  rw [← exists_or]
  refine exists_congr fun words => ?_
  rw [← and_or_left]
  exact and_congr_right fun hwords => infix_append_cons_iff (hc words hwords)

theorem hasTableExistsWords_labeled (label text : String) :
    hasTableExistsWords (labeled label text) = (hasTableExistsWords label || hasTableExistsWords text) := by
  have hcolon : ∀ words ∈ tableExistsWords, ':' ∉ words.toList := by simp [tableExistsWords]
  have hblank : ∀ words ∈ tableExistsWords, ¬ words.toList <+: ' ' :: text.toList := by
    simp [tableExistsWords]
  have htext : (labeled label text).toList = label.toList ++ ':' :: (" " ++ text).toList := by
    show (label ++ ": " ++ text).toList = _
    simp
  have hback : hasTableExistsWords (" " ++ text) = hasTableExistsWords text := by
    rw [Bool.eq_iff_iff, hasTableExistsWords_iff, hasTableExistsWords_iff]
    refine exists_congr fun words => and_congr_right fun hwords => ?_
    rw [String.toList_append]
    exact infix_cons_iff.trans (or_iff_right (hblank words hwords))
  rw [hasTableExistsWords_around hcolon htext, hback]

/-! ### Layers around a failure -/

/-- One layer around a failure: a label in front of it, or another failure that it is joined to. -/
inductive Layer where
  | label (text : String)
  | behind (companion : Failure)
  | ahead (companion : Failure)
  deriving Repr

namespace Layer

/-- The failure with the layer around it. -/
def wrap : Layer → Failure → Failure
  | .label text, f => .within text f
  | .behind companion, f => .both companion f
  | .ahead companion, f => .both f companion

/-- The text that a layer adds. -/
def text : Layer → String
  | .label text => text
  | .behind companion => companion.text
  | .ahead companion => companion.text

/-- The failures that a layer adds, besides the one that stands for the layer itself. -/
def causes : Layer → List Failure
  | .label _ => []
  | .behind companion => companion.causes
  | .ahead companion => companion.causes

def isLabel : Layer → Bool
  | .label _ => true
  | .behind _ => false
  | .ahead _ => false

end Layer

def isRefusal : Failure → Bool
  | .database .. => true
  | _ => false

/-- A layer that has nothing to do with tables: it brings no refusal of its own, and not the words of one. -/
structure Layer.IsPlain (l : Layer) : Prop where
  noWords : hasTableExistsWords l.text = false
  noRefusal : ∀ f ∈ l.causes, f.isRefusal = false

/-- A failure under layers, the first one outermost. -/
def wrapAll (layers : List Layer) (f : Failure) : Failure := layers.foldr Layer.wrap f

/-! ### The three searches -/

theorem refusal?_cons {f : Failure} (h : f.isRefusal = false) (e : Engine) (fs : List Failure) :
    refusal? e (f :: fs) = refusal? e fs := by
  cases f with
  | database => cases h
  | _ => rfl

theorem refusal?_eq_none {fs : List Failure} (h : ∀ f ∈ fs, f.isRefusal = false) (e : Engine) : refusal? e fs = none := by
  induction fs with
  | nil => rfl
  | cons f fs ih =>
    obtain ⟨hf, hfs⟩ := forall_mem_cons.1 h
    rw [refusal?_cons hf, ih hfs]

theorem refusal?_append (e : Engine) (fs gs : List Failure) :
    refusal? e (fs ++ gs) = (refusal? e fs).or (refusal? e gs) :=
  findSome?_append

theorem refusal?_causes_wrap {l : Layer} (hl : l.IsPlain) (e : Engine) (f : Failure) :
    refusal? e (l.wrap f).causes = refusal? e f.causes := by
  have hadded : refusal? e l.causes = none := refusal?_eq_none hl.noRefusal e
  cases l with
  | label text => rw [Layer.wrap, causes, refusal?_cons rfl]
  | behind companion =>
    rw [Layer.causes] at hadded
    rw [Layer.wrap, causes, refusal?_cons rfl, refusal?_append, hadded, Option.none_or]
  | ahead companion =>
    rw [Layer.causes] at hadded
    rw [Layer.wrap, causes, refusal?_cons rfl, refusal?_append, hadded, Option.or_none]

/-- **A refusal is found below all layers.** -/
theorem refusal?_causes_wrapAll {layers : List Layer} (hlayers : ∀ l ∈ layers, l.IsPlain) (e : Engine) (f : Failure) :
    refusal? e (wrapAll layers f).causes = refusal? e f.causes := by
  induction layers with
  | nil => rfl
  | cons l layers ih =>
    obtain ⟨hl, hlayers⟩ := forall_mem_cons.1 hlayers
    exact (refusal?_causes_wrap hl e _).trans (ih hlayers)

theorem refusal?_lineage_wrap (l : Layer) (e : Engine) (f : Failure) :
    refusal? e (l.wrap f).lineage = if l.isLabel then refusal? e f.lineage else none := by
  cases l with
  | label text => rw [Layer.wrap, lineage, refusal?_cons rfl]; rfl
  | behind companion => rfl
  | ahead companion => rfl

/-- **Along single causes a refusal is found below labels only.** -/
theorem refusal?_lineage_wrapAll (layers : List Layer) (e : Engine) (f : Failure) :
    refusal? e (wrapAll layers f).lineage = if layers.all Layer.isLabel then refusal? e f.lineage else none := by
  induction layers with
  | nil => rfl
  | cons l layers ih =>
    show refusal? e (l.wrap (wrapAll layers f)).lineage = _
    rw [refusal?_lineage_wrap, ih, all_cons]
    cases l.isLabel <;> rfl

theorem hasTableExistsWords_wrap {l : Layer} (hl : l.IsPlain) (f : Failure) :
    hasTableExistsWords (l.wrap f).text = hasTableExistsWords f.text := by
  have hline : ∀ words ∈ tableExistsWords, '\n' ∉ words.toList := by simp [tableExistsWords]
  have hjoin : ∀ a b : String, (a ++ "\n" ++ b).toList = a.toList ++ '\n' :: b.toList := by simp
  have hadded : hasTableExistsWords l.text = false := hl.noWords
  cases l with
  | label text =>
    show hasTableExistsWords (labeled text f.text) = _
    rw [Layer.text] at hadded
    rw [hasTableExistsWords_labeled, hadded, Bool.false_or]
  | behind companion =>
    show hasTableExistsWords (companion.text ++ "\n" ++ f.text) = _
    rw [Layer.text] at hadded
    rw [hasTableExistsWords_around hline (hjoin _ _), hadded, Bool.false_or]
  | ahead companion =>
    show hasTableExistsWords (f.text ++ "\n" ++ companion.text) = _
    rw [Layer.text] at hadded
    rw [hasTableExistsWords_around hline (hjoin _ _), hadded, Bool.or_false]

/-- **Layers without the words add none.** -/
theorem hasTableExistsWords_wrapAll {layers : List Layer} (hlayers : ∀ l ∈ layers, l.IsPlain) (f : Failure) :
    hasTableExistsWords (wrapAll layers f).text = hasTableExistsWords f.text := by
  induction layers with
  | nil => rfl
  | cons l layers ih =>
    obtain ⟨hl, hlayers⟩ := forall_mem_cons.1 hlayers
    exact (hasTableExistsWords_wrap hl _).trans (ih hlayers)

/-! ### What is recognised -/

theorem isDigit_or_eq_of_mem_decimalInt {n : Int} {c : Char} (h : c ∈ (decimalInt n).toList) : c.isDigit ∨ c = '-' := by
  cases n with
  | ofNat n => exact .inl (isDigit_of_mem_decimal h)
  | negSucc n =>
    have hcons : (decimalInt (.negSucc n)).toList = '-' :: (decimal (n + 1)).toList := String.toList_append
    rw [hcons, mem_cons] at h
    exact h.symm.imp_left isDigit_of_mem_decimal

/-- The words are in the text of a number when its digits begin with those of the words. -/
theorem hasTableExistsWords_number_iff {n : Int} :
    hasTableExistsWords ("Error " ++ decimalInt n) = true ↔ ∃ k : Nat, n / 10 ^ k = 1050 := by
  have hletter : ∀ c : Char, c.isDigit = false → c ≠ '-' → c ∉ (decimalInt n).toList := by
    intro c hdigit hsign hmem
    rcases isDigit_or_eq_of_mem_decimalInt hmem with h | h
    · rw [hdigit] at h
      cases h
    · exact hsign h
  have hwords : "Error 1050".toList = "Error ".toList ++ Nat.toDigits 10 1050 := by decide
  -- The first letter of the words is at the beginning of the text only.
  have hfirst : "Error 1050".toList <:+: ("Error " ++ decimalInt n).toList ↔ ∃ k : Nat, n / 10 ^ k = 1050 := by
    have hrest : ¬ "Error 1050".toList <:+: "rror ".toList ++ (decimalInt n).toList := fun h => by
      have hmem : 'E' ∈ "rror ".toList ++ (decimalInt n).toList := h.mem (by decide)
      exact absurd hmem (not_mem_append (by decide) (hletter 'E' rfl (by decide)))
    rw [String.toList_append]
    refine infix_cons_iff.trans ((or_iff_left hrest).trans ?_)
    show "Error 1050".toList <+: "Error ".toList ++ _ ↔ _
    rw [hwords, prefix_append_right_inj, decimalInt_prefix_iff (by decide)]
    rfl
  have hsecond : ¬ "There is already an object named".toList <:+: ("Error " ++ decimalInt n).toList := fun h => by
    have hmem : 'T' ∈ ("Error " ++ decimalInt n).toList := h.mem (by simp)
    rw [String.toList_append] at hmem
    exact absurd hmem (not_mem_append (by decide) (hletter 'T' rfl (by decide)))
  rw [hasTableExistsWords_iff, ← hfirst]
  simp only [tableExistsWords, mem_cons, not_mem_nil, or_false, exists_eq_or_imp, exists_eq_left]
  exact or_iff_left hsecond

/-- The texts of refusals with the words. -/
theorem hasTableExistsWords_database_iff {e : Engine} {n : Int} {message : String}
    (hmessage : hasTableExistsWords message = false) :
    hasTableExistsWords (Failure.database e n message).text = true ↔ e = .mysql ∧ ∃ k : Nat, n / 10 ^ k = 1050 := by
  cases e with
  | mysql =>
    show hasTableExistsWords (labeled ("Error " ++ decimalInt n) message) = true ↔ _
    rw [hasTableExistsWords_labeled, hmessage, Bool.or_false, hasTableExistsWords_number_iff]
    simp
  | mssql =>
    have hlabel : hasTableExistsWords "mssql" = false := by decide
    show hasTableExistsWords (labeled "mssql" message) = true ↔ _
    rw [hasTableExistsWords_labeled, hmessage, hlabel]
    simp

theorem refusal?_database (e engine : Engine) (n : Int) (message : String) :
    refusal? e [.database engine n message] = if engine = e then some n else none := by
  rw [refusal?, findSome?_cons]
  split <;> simp_all

theorem isTableExists_iff {f : Failure} :
    f.isTableExists = true ↔ refusal? .mysql f.causes = some 1050 ∨ refusal? .mssql f.lineage = some 2714 ∨
      hasTableExistsWords f.text = true := by
  rw [isTableExists, Bool.or_eq_true, Bool.or_eq_true, beq_iff_eq, beq_iff_eq, or_assoc]
  rfl

/-- **What is recognised as the refusal to create a table that exists.**  Below layers that have nothing to do with
    tables, it is a refusal of the one engine whose number begins with the digits 1050, so also 10500 to 10509 of the
    numbers of 16 bits, and a refusal of the other engine with the number 2714 that is joined to nothing. -/
theorem isTableExists_wrapAll_iff {layers : List Layer} (hlayers : ∀ l ∈ layers, l.IsPlain) {e : Engine} {n : Int}
    {message : String} (hmessage : hasTableExistsWords message = false) :
    (wrapAll layers (.database e n message)).isTableExists = true ↔
      (e = .mysql ∧ ∃ k : Nat, n / 10 ^ k = 1050) ∨ (e = .mssql ∧ n = 2714 ∧ layers.all Layer.isLabel = true) := by
  have hcauses : refusal? .mysql (wrapAll layers (.database e n message)).causes = if e = .mysql then some n else none :=
    (refusal?_causes_wrapAll hlayers .mysql _).trans (refusal?_database .mysql e n message)
  have hlineage : refusal? .mssql (wrapAll layers (.database e n message)).lineage =
      if layers.all Layer.isLabel then (if e = .mssql then some n else none) else none := by
    rw [refusal?_lineage_wrapAll]
    exact congrArg (if layers.all Layer.isLabel then · else none) (refusal?_database .mssql e n message)
  rw [isTableExists_iff, hcauses, hlineage, hasTableExistsWords_wrapAll hlayers,
    hasTableExistsWords_database_iff hmessage]
  cases e with
  | mysql =>
    -- The number itself is one that begins with the digits, so the text is what decides.
    have hnumber : n = 1050 → ∃ k : Nat, n / 10 ^ k = 1050 := fun h => ⟨0, by simp [h]⟩
    simpa using hnumber
  | mssql => cases layers.all Layer.isLabel <;> simp

/-- Numbers of the one engine are seen through joins and labels. -/
theorem isTableExists_wrapAll_joined :
    (∀ l ∈ [Layer.label "dialect/sql: exec", .behind (.other "first"), .ahead .canceled], l.IsPlain) ∧
      hasTableExistsWords "Table 'items' already exists" = false ∧
      (wrapAll [.label "dialect/sql: exec", .behind (.other "first"), .ahead .canceled]
        (.database .mysql 1050 "Table 'items' already exists")).isTableExists = true := by
  have hlayers : ∀ l ∈ [Layer.label "dialect/sql: exec", .behind (.other "first"), .ahead .canceled], l.IsPlain := by
    simp only [List.forall_mem_cons]
    exact ⟨⟨by decide, nofun⟩, ⟨by decide, by decide⟩, ⟨by decide, by decide⟩, nofun⟩
  have hmessage : hasTableExistsWords "Table 'items' already exists" = false := by decide
  exact ⟨hlayers, hmessage, (isTableExists_wrapAll_iff hlayers hmessage).2 (.inl ⟨rfl, 0, by decide⟩)⟩

/-- The same refusal of the other engine is lost in a join, and another number of the first one is taken for it. -/
theorem not_isTableExists_joined_and_isTableExists_longer :
    (Layer.behind (.other "first")).IsPlain ∧ hasTableExistsWords "m" = false ∧
      (wrapAll [.behind (.other "first")] (.database .mssql 2714 "m")).isTableExists = false ∧
      (wrapAll [] (.database .mysql 10500 "m")).isTableExists = true :=
  ⟨⟨by decide, by decide⟩, by decide⟩

end Failure

end ServiceCompiler
