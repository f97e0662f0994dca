import Mathlib.Data.Finset.Card
import ServiceCompiler.Naming.Group

namespace ServiceCompiler

open List Text NamedGroup

open Naming (Names)

/-!
# Fresh names are fresh

Why the search of `Names.next` always ends at a name that is not taken, and what this means for a run that hands out
many names:

* `Names.key_candidate_inj` — the candidates of a name are pairwise distinct under the form in which
  names are compared, also where case does not count and where a file ending stays behind the number.
* `Names.next_isFirstFree` — hence the search ends with the first candidate that is free, after at most one more than
  there are names taken.
* `Names.Hands` — the account of a run: the names handed out are distinct, none was taken before, and
  afterwards exactly these are taken in addition.  Runs compose (`Names.Hands.trans`).
* `nameGroupsFrom_hands_identifiers` — naming a list of groups is such a run.
-/

/-! ### Texts of numbers and their case -/

variable {i : Nat} {groups : List RouteGroup}

namespace Text

/-- Different numbers have different digits. -/
theorem decimal_inj {j : Nat} (h : decimal i = decimal j) : i = j := by
  have hd : Nat.toDigits 10 i = Nat.toDigits 10 j := String.ofList_injective h
  rw [← Nat.ofDigitChars_ten_toDigits (n := i), hd, Nat.ofDigitChars_ten_toDigits]

theorem decimal_ne_empty (i : Nat) : (decimal i).toList ≠ [] := by
  simp [decimal, Nat.toDigits_ne_nil]

/-- A decimal digit is one of the ten ASCII digits. -/
theorem isDigit_of_mem_decimal {c : Char} (h : c ∈ (decimal i).toList) : c.isDigit := by
  rw [decimal, String.toList_ofList] at h
  exact Nat.isDigit_of_mem_toDigits (by decide) (by decide) h

/-- Digits have no case. -/
theorem toLower_of_isDigit {c : Char} (h : c.isDigit) : toLower c = c := by
  have hrange : 48 ≤ c.toNat ∧ c.toNat ≤ 57 := by
    simpa [Char.isDigit, Char.le_def, UInt32.le_iff_toNat_le] using h
  have hcap : ¬ ('A' ≤ c ∧ c ≤ 'Z') := by
    rintro ⟨hA, -⟩
    have : 65 ≤ c.toNat := by simpa [Char.le_def, UInt32.le_iff_toNat_le] using hA
    omega
  rw [toLower, if_pos (by omega), asciiLower, if_neg hcap]

theorem lower_append (a b : String) : lower (a ++ b) = lower a ++ lower b := by
  simp [lower]

theorem lower_decimal (i : Nat) : lower (decimal i) = decimal i := by
  rw [lower, map_congr_left fun c hc => toLower_of_isDigit (isDigit_of_mem_decimal hc)]
  simp

theorem length_lower (s : String) : (lower s).toList.length = s.toList.length := by
  simp [lower]

end Text

/-! ### The candidates of a name -/

namespace Naming.Names

theorem key_append (names : Names) (a b : String) : names.key (a ++ b) = names.key a ++ names.key b := by
  unfold key
  split
  · exact lower_append a b
  · rfl

theorem key_decimal (names : Names) (i : Nat) : names.key (decimal i) = decimal i := by
  unfold key
  split
  · exact lower_decimal i
  · rfl

theorem length_key (names : Names) (s : String) : (names.key s).toList.length = s.toList.length := by
  unfold key
  split
  · exact length_lower s
  · rfl

/-- The part of a name in front of the number. -/
def stem (names : Names) (name : String) : String :=
  String.ofList ((stripTail? names.ending.toList name.toList).getD name.toList)

section

variable (names : Names) (name : String)
include names name

@[simp] theorem candidate_one : names.candidate name 1 = name := rfl

theorem candidate_of_one_lt (h : 1 < i) :
    names.candidate name i = names.stem name ++ decimal i ++ names.ending := by
  rw [candidate, if_neg (by omega)]
  rfl

/-- A name is not longer than its stem and its ending together. -/
theorem length_le_stem : name.toList.length ≤ (names.stem name).toList.length + names.ending.toList.length := by
  rw [stem, String.toList_ofList]
  cases h : stripTail? names.ending.toList name.toList with
  | none => simp
  | some rest =>
    obtain ⟨t, ht, rfl⟩ := Option.map_eq_some_iff.1 h
    have hlen := congrArg length (stripLead?_eq_some_iff.1 ht)
    simp only [length_reverse, length_append] at hlen
    simp only [Option.getD_some, length_reverse]
    omega

/-- A candidate with a number is longer than the name itself. -/
theorem length_lt_candidate (h : 1 < i) : name.toList.length < (names.candidate name i).toList.length := by
  have hstem := length_le_stem names name
  have hdigits := length_pos_iff.2 (decimal_ne_empty i)
  rw [candidate_of_one_lt names name h]
  simp only [String.toList_append, length_append]
  omega

/-- **The candidates are distinct.** Two candidates of a name that count as one have the same number.
    The first differs from the others in length, and the others differ in their digits alone. -/
theorem key_candidate_inj {j : Nat} (hi : 1 ≤ i) (hj : 1 ≤ j)
    (h : names.key (names.candidate name i) = names.key (names.candidate name j)) : i = j := by
  have hlen : (names.candidate name i).toList.length = (names.candidate name j).toList.length := by
    rw [← length_key names, h, length_key]
  rcases Nat.eq_or_lt_of_le hi with rfl | hi'
  · rcases Nat.eq_or_lt_of_le hj with rfl | hj'
    · rfl
    · have := length_lt_candidate names name hj'
      rw [candidate_one] at hlen
      omega
  · rcases Nat.eq_or_lt_of_le hj with rfl | hj'
    · have := length_lt_candidate names name hi'
      rw [candidate_one] at hlen
      omega
    · -- Stem and ending are the same on both sides, so that the digits are compared.
      rw [candidate_of_one_lt names name hi', candidate_of_one_lt names name hj'] at h
      simp only [key_append, key_decimal] at h
      exact decimal_inj
        ((String.append_right_inj _).1 ((String.append_left_inj _).1 h))

end

/-! ### The search -/

/-- The search without a bound: from a number on, it passes over the candidates that are taken and ends with the first
    one that is free. -/
inductive Finds (names : Names) (name : String) : Nat → List String → String → Prop
  | free {i : Nat} (h : names.key (names.candidate name i) ∉ names.taken) :
      Finds names name i [] (names.candidate name i)
  | taken {i : Nat} {passed : List String} {fresh : String} (h : names.key (names.candidate name i) ∈ names.taken)
      (hrest : Finds names name (i + 1) passed fresh) :
      Finds names name i (names.candidate name i :: passed) fresh

/-- What an ended search has seen: the candidates in their order, of which only the last is free. -/
theorem Finds.account {names : Names} {name fresh : String} {passed : List String}
    (h : names.Finds name i passed fresh) :
    passed ++ [fresh] = (range' i (passed.length + 1)).map (names.candidate name) ∧
      (∀ c ∈ passed, names.key c ∈ names.taken) ∧ names.key fresh ∉ names.taken := by
  induction h with
  | free h => exact ⟨rfl, by simp, h⟩
  | taken h _ ih =>
    obtain ⟨horder, htaken, hfree⟩ := ih
    refine ⟨?_, forall_mem_cons.2 ⟨h, htaken⟩, hfree⟩
    rw [cons_append, horder]
    rfl

/-- Among one candidate more than there are names taken, one is free, because all of them are distinct. -/
theorem exists_free (names : Names) (name : String) :
    ∃ k ≤ names.taken.toFinset.card, names.key (names.candidate name (1 + k)) ∉ names.taken := by
  by_contra! htaken
  have hle : (Finset.range (names.taken.toFinset.card + 1)).card ≤ names.taken.toFinset.card := by
    refine Finset.card_le_card_of_injOn (fun k => names.key (names.candidate name (1 + k))) ?_ ?_
    · intro k hk
      have hlt := Finset.mem_range.1 hk
      exact mem_toFinset.2 (htaken k (by omega))
    · intro a _ b _ heq
      have := key_candidate_inj names name (by omega) (by omega) heq
      omega
  rw [Finset.card_range] at hle
  omega

/-- The bound does not cut a search off that has a free candidate within it. -/
theorem finds_search (names : Names) (name : String) {fuel k : Nat}
    (hfree : names.key (names.candidate name (i + k)) ∉ names.taken) (hfuel : k ≤ fuel) :
    ∃ passed, names.Finds name i passed (names.search name fuel i) ∧ passed.length ≤ k := by
  induction fuel generalizing i k with
  | zero =>
    obtain rfl : k = 0 := by omega
    exact ⟨[], .free hfree, Nat.le_refl 0⟩
  | succ fuel ih =>
    rw [search]
    split
    · rename_i htaken
      rw [contains_iff_mem] at htaken
      cases k with
      | zero => exact absurd htaken hfree
      | succ k =>
        rw [show i + (k + 1) = i + 1 + k by omega] at hfree
        obtain ⟨passed, hfinds, hlength⟩ := ih hfree (by omega)
        exact ⟨_ :: passed, .taken htaken hfinds, Nat.succ_le_succ hlength⟩
    · rename_i hfree'
      exact ⟨[], .free (by simpa using hfree'), Nat.zero_le k⟩

theorem finds_next (names : Names) (name : String) :
    ∃ passed, names.Finds name 1 passed (names.next name).1 ∧ passed.length ≤ names.taken.toFinset.card := by
  obtain ⟨k, hk, hfree⟩ := exists_free names name
  obtain ⟨passed, hfinds, hlength⟩ := finds_search names name hfree (hk.trans (toFinset_card_le names.taken))
  exact ⟨passed, hfinds, hlength.trans hk⟩

theorem next_fresh (names : Names) (name : String) : names.key (names.next name).1 ∉ names.taken := by
  obtain ⟨passed, hfinds, -⟩ := finds_next names name
  exact hfinds.account.2.2

/-- A new name is the wanted one or the wanted one with a number. -/
theorem next_eq_candidate (names : Names) (name : String) :
    ∃ k, 1 ≤ k ∧ (names.next name).1 = names.candidate name k := by
  obtain ⟨passed, hfinds, -⟩ := finds_next names name
  have hmem : (names.next name).1 ∈ passed ++ [(names.next name).1] := by simp
  rw [hfinds.account.1] at hmem
  obtain ⟨k, hk, heq⟩ := mem_map.1 hmem
  exact ⟨k, (mem_range'_1.1 hk).1, heq.symm⟩

/-- **The search for a name ends.**  It examines at most one candidate more than there are names taken: the name itself
    and then the name with the numbers 2, 3, … before its ending.  It ends with the first of them that is free, and this
    one alone is taken in addition. -/
theorem next_isFirstFree (names : Names) (name : String) :
    ∃ passed, names.Finds name 1 passed (names.next name).1 ∧
      (passed ++ [(names.next name).1]).length ≤ names.taken.toFinset.card + 1 ∧
      passed ++ [(names.next name).1] =
        name :: (range' 2 passed.length).map (fun i => names.stem name ++ decimal i ++ names.ending) ∧
      (∀ c ∈ passed, names.key c ∈ names.taken) ∧ names.key (names.next name).1 ∉ names.taken ∧
      (names.next name).2 = { names with taken := names.key (names.next name).1 :: names.taken } := by
  obtain ⟨passed, hfinds, hlength⟩ := finds_next names name
  obtain ⟨horder, htaken, hfree⟩ := hfinds.account
  refine ⟨passed, hfinds, ?_, ?_, htaken, hfree, rfl⟩
  · rw [length_append, length_singleton]
    omega
  · rw [horder, range'_succ, map_cons, candidate_one]
    refine congrArg (name :: ·) (map_congr_left fun k hk => ?_)
    exact candidate_of_one_lt names name (mem_range'_1.1 hk).1

/-! ### Runs that hand out many names -/

/-- The account of a run that hands out `given`, one after another: names are compared as before, the
    names handed out are distinct and were free, and they are what is taken in addition. -/
structure Hands (names : Names) (given : List String) (after : Names) : Prop where
  foldCase : after.foldCase = names.foldCase
  ending : after.ending = names.ending
  taken : after.taken = (given.map names.key).reverse ++ names.taken
  nodup : (given.map names.key).Nodup
  fresh : ∀ n ∈ given, names.key n ∉ names.taken

variable {names middle after : Names}

theorem Hands.key_eq {given : List String} (h : names.Hands given after) : after.key = names.key := by
  funext s
  rw [key, key, h.foldCase]

theorem Hands.nil (names : Names) : names.Hands [] names :=
  ⟨rfl, rfl, rfl, nodup_nil, by simp⟩

theorem Hands.next (names : Names) (name : String) :
    names.Hands [(names.next name).1] (names.next name).2 where
  foldCase := rfl
  ending := rfl
  taken := rfl
  nodup := nodup_singleton _
  fresh := by
    intro n hn
    rw [mem_singleton.1 hn]
    exact next_fresh names name

/-- Two runs one after the other are a run. -/
theorem Hands.trans {xs ys : List String} (hx : names.Hands xs middle)
    (hy : middle.Hands ys after) : names.Hands (xs ++ ys) after where
  foldCase := hy.foldCase.trans hx.foldCase
  ending := hy.ending.trans hx.ending
  taken := by
    rw [hy.taken, hx.taken, hx.key_eq, map_append, reverse_append, append_assoc]
  nodup := by
    rw [map_append, nodup_append]
    have hny : (ys.map names.key).Nodup := by
      have := hy.nodup
      rwa [hx.key_eq] at this
    refine ⟨hx.nodup, hny, ?_⟩
    -- A name of the second run was free after the first.
    intro a ha b hb hab
    obtain ⟨n, hn, rfl⟩ := mem_map.1 hb
    have hfree := hy.fresh n hn
    rw [hx.key_eq, hx.taken, mem_append, mem_reverse] at hfree
    exact hfree (.inl (hab ▸ ha))
  fresh := by
    intro n hn htaken
    rcases mem_append.1 hn with hn | hn
    · exact hx.fresh n hn htaken
    · have hfree := hy.fresh n hn
      rw [hx.key_eq, hx.taken] at hfree
      exact hfree (mem_append_right _ htaken)

/-- Fresh names for a list are a run. -/
theorem Hands.nextAll (names : Names) (wanted : List String) :
    names.Hands (names.nextAll wanted).1 (names.nextAll wanted).2 := by
  induction wanted generalizing names with
  | nil => exact Hands.nil names
  | cons name rest ih => exact (Hands.next names name).trans (ih (names.next name).2)

@[simp] theorem length_nextAll (names : Names) (wanted : List String) :
    (names.nextAll wanted).1.length = wanted.length := by
  induction wanted generalizing names with
  | nil => rfl
  | cons name rest ih => simp [Names.nextAll, ih]

/-- The names handed out differ as texts, too. -/
theorem Hands.nodup_given {given : List String} (h : names.Hands given after) : given.Nodup :=
  Nodup.of_map names.key h.nodup

end Naming.Names

/-! ### Named groups -/

/-- The identifiers that a group brings into the routes package. -/
def NamedGroup.identifiers (g : NamedGroup) : List String := g.register :: g.handlers

/-- Naming groups is a run over the identifiers. -/
theorem nameGroupsFrom_hands_identifiers (idents files : Names) (groups : List RouteGroup) :
    ∃ after, idents.Hands
      ((nameGroupsFrom idents files groups).flatMap identifiers) after := by
  induction groups generalizing idents files with
  | nil => exact ⟨idents, .nil idents⟩
  | cons g rest ih =>
    obtain ⟨after, hafter⟩ := ih _ _
    exact ⟨after, ((Names.Hands.next idents _).trans (Names.Hands.nextAll _ _)).trans hafter⟩

/-- Naming changes neither the groups nor their order. -/
theorem map_toRouteGroup_nameGroups (groups : List RouteGroup) :
    (nameGroups groups).map toRouteGroup = groups := by
  have hfrom : ∀ idents files : Names,
      (nameGroupsFrom idents files groups).map toRouteGroup = groups := by
    induction groups with
    | nil => intros; rfl
    | cons g rest ih =>
      intro idents files
      exact congrArg (g :: ·) (ih _ _)
  exact hfrom _ _

theorem toRouteGroup_mem {g : NamedGroup} (hg : g ∈ nameGroups groups) : g.toRouteGroup ∈ groups := by
  have hmem := mem_map_of_mem (f := toRouteGroup) hg
  rwa [map_toRouteGroup_nameGroups] at hmem

/-- The identifier that a wanted one turns into: the same, or with a number at its end. -/
def numbered (name : String) (k : Nat) : String := if k ≤ 1 then name else name ++ decimal k

theorem Naming.Names.candidate_eq_numbered {names : Names} (h : names.ending = "") (name : String)
    (k : Nat) : names.candidate name k = numbered name k := by
  unfold candidate numbered
  split
  · rfl
  · simp [h, stripTail?, stripLead?]

theorem Naming.Names.next_eq_numbered {names : Names} (h : names.ending = "") (name : String) :
    ∃ k, (names.next name).1 = numbered name k := by
  obtain ⟨k, -, hk⟩ := names.next_eq_candidate name
  exact ⟨k, by rw [hk, candidate_eq_numbered h]⟩

theorem Naming.Names.mem_nextAll {names : Names} (h : names.ending = "") {wanted : List String}
    {x : String} (hx : x ∈ (names.nextAll wanted).1) : ∃ w ∈ wanted, ∃ k, x = numbered w k := by
  induction wanted generalizing names with
  | nil => simp [Names.nextAll] at hx
  | cons w rest ih =>
    rcases mem_cons.1 hx with rfl | hx
    · exact ⟨w, mem_cons_self, names.next_eq_numbered h w⟩
    · have hnext : (names.next w).2.ending = "" := h
      obtain ⟨v, hv, k, hk⟩ := ih hnext hx
      exact ⟨v, mem_cons_of_mem w hv, k, hk⟩

/-- What is known of one named group: every route has a handler, and all its identifiers are the wanted
    ones, perhaps with a number. -/
structure NamedGroup.Named (g : NamedGroup) : Prop where
  length_handlers : g.handlers.length = g.routes.length
  register_eq : ∃ k, g.register = numbered (Naming.registerName g.segment) k
  handler_eq : ∀ h ∈ g.handlers, ∃ r ∈ g.routes, ∃ k, h = numbered (Naming.handlerName r) k

theorem nameGroupsFrom_named {idents files : Names} (hend : idents.ending = "") :
    ∀ g ∈ nameGroupsFrom idents files groups, g.Named := by
  induction groups generalizing idents files with
  | nil => simp [nameGroupsFrom]
  | cons group rest ih =>
    intro g hg
    have hnext : (idents.next (Naming.registerName group.segment)).2.ending = "" := hend
    rcases mem_cons.1 hg with rfl | hg
    · refine ⟨by simp, Names.next_eq_numbered hend _, ?_⟩
      intro h hh
      obtain ⟨w, hw, k, hk⟩ := Names.mem_nextAll hnext hh
      obtain ⟨r, hr, rfl⟩ := mem_map.1 hw
      exact ⟨r, hr, k, hk⟩
    · exact ih ((Names.Hands.nextAll _ _).ending.trans hnext) g hg

/-- Every group of a service is named as a whole. -/
theorem named_of_mem_nameGroups {g : NamedGroup} (hg : g ∈ nameGroups groups) : g.Named :=
  nameGroupsFrom_named rfl g hg

/-- The identifiers of all groups are distinct, and none of them is reserved. -/
theorem nodup_identifiers (groups : List RouteGroup) :
    ((nameGroups groups).flatMap identifiers).Nodup ∧
      ∀ x ∈ (nameGroups groups).flatMap identifiers, x ∉ reservedNames := by
  obtain ⟨after, h⟩ := nameGroupsFrom_hands_identifiers initialIdentifiers initialFiles groups
  refine ⟨h.nodup_given, fun x hx hres => h.fresh x hx ?_⟩
  exact mem_append_left _ (mem_map_of_mem hres)

end ServiceCompiler
