import ServiceCompiler.Files.Tree
import ServiceCompiler.Proofs.Text.Pieces

namespace ServiceCompiler

open Files Text
open List hiding splitOn

/-!
# Where paths lead

A path is followed part by part, and where it leads does not depend on the files on the way.

* `FileTree.address` — the place to which a path leads.
* `FileTree.place` — the place of the directory that a clean path names, told from its parts alone.
* `address_join` — a path below a directory leads to a place below that of the directory.
* `IsDirect` — a path that passes only through places above its end or above the working directory.  Paths that
  were joined are such paths.
-/

variable {ps names : List String} {path below : String} {rooted : Bool}

/-! ### Parts -/

namespace Files

/-- A part that names something in the directory where it stands. -/
def IsName (part : String) : Prop := part ≠ "" ∧ part ≠ "." ∧ part ≠ ".."

instance (part : String) : Decidable (IsName part) := inferInstanceAs (Decidable (_ ∧ _ ∧ _))

/-- A path that leads down from any directory. -/
def IsDescent (path : String) : Prop := ∀ part ∈ parts path, IsName part

instance (path : String) : Decidable (IsDescent path) := inferInstanceAs (Decidable (∀ part ∈ parts path, IsName part))

theorem parts_ne_nil (path : String) : parts path ≠ [] := by
  rw [parts, ne_eq, map_eq_nil_iff]
  exact splitOn_ne_nil '/' path.toList

theorem slash_notMem_of_mem_parts {part : String} (h : part ∈ parts path) : '/' ∉ part.toList := by
  obtain ⟨piece, hpiece, rfl⟩ := mem_map.1 h
  rw [String.toList_ofList]
  exact fun hslash => (of_mem_splitOn hpiece '/' hslash).2 rfl

theorem parts_append (path below : String) : parts (path ++ "/" ++ below) = parts path ++ parts below := by
  have hslash : (path ++ "/" ++ below).toList = path.toList ++ '/' :: below.toList := by simp
  rw [parts, hslash, splitOn_append_cons, map_append]
  rfl

theorem parts_of_notMem {part : String} (h : '/' ∉ part.toList) : parts part = [part] := by
  rw [parts, splitOn_of_notMem h, map_singleton, String.ofList_toList]

/-- Parts that are put together are found again. -/
theorem parts_intercalate (hne : ps ≠ []) (h : ∀ p ∈ ps, '/' ∉ p.toList) : parts ("/".intercalate ps) = ps := by
  induction ps with
  | nil => exact absurd rfl hne
  | cons p rest ih =>
    obtain ⟨hp, hrest⟩ := forall_mem_cons.1 h
    cases rest with
    | nil => rw [String.intercalate_singleton, parts_of_notMem hp]
    | cons q rest =>
      rw [String.intercalate_cons_cons, parts_append, parts_of_notMem hp, ih (cons_ne_nil q rest) hrest]
      rfl

theorem intercalate_parts (path : String) : "/".intercalate (parts path) = path := by
  rw [← String.toList_inj, String.toList_intercalate, parts, map_map, splitOn_eq_list_splitOn]
  have hid : String.toList ∘ String.ofList = id := funext fun _ => String.toList_ofList
  rw [hid, map_id]
  exact intercalate_splitOn '/'

theorem parts_injective {a b : String} (h : parts a = parts b) : a = b := by
  rw [← intercalate_parts a, h, intercalate_parts]

/-- A path starts at the root if an empty part stands before its other parts. -/
theorem isRooted_eq_true_iff : isRooted path = true ↔ ∃ ps, ps ≠ [] ∧ parts path = "" :: ps := by
  cases hpath : path.toList with
  | nil => simp [isRooted, parts, hpath, hasLead, stripLead?, splitOn]
  | cons c cs =>
    by_cases hc : c = '/'
    · have hparts : parts path = "" :: (splitOn '/' cs).map String.ofList := by
        rw [parts, hpath, splitOn, if_pos hc]
        rfl
      have hne : (splitOn '/' cs).map String.ofList ≠ [] := by simp [splitOn_ne_nil]
      simp [isRooted, hpath, hasLead, stripLead?, hc, hparts, hne]
    · -- The first part has the first character.
      have hhead : ∀ ps, parts path ≠ "" :: ps := by
        intro ps hps
        rw [parts, hpath, splitOn, if_neg hc] at hps
        split at hps <;> simp [← String.toList_inj] at hps
      simp [isRooted, hpath, hasLead, stripLead?, Ne.symm hc, hhead]

/-! ### Cleaning -/

/-- Parts without detours: steps up, which no path from the root has, and then names. -/
def IsClean (rooted : Bool) (ps : List String) : Prop :=
  ∃ k names, ps = replicate k ".." ++ names ∧ (∀ name ∈ names, IsName name) ∧ (rooted = true → k = 0)

/-- One more part keeps the parts free of detours. -/
theorem isClean_keepPart {kept : List String} (h : IsClean rooted kept.reverse) (part : String) :
    IsClean rooted (keepPart rooted kept part).reverse := by
  unfold keepPart
  split
  · exact h
  · rename_i hpart
    rw [not_or] at hpart
    split
    · cases kept with
      | nil =>
        cases rooted
        · exact ⟨1, [], rfl, by simp, by simp⟩
        · exact ⟨0, [], rfl, by simp, by simp⟩
      | cons top rest =>
        obtain ⟨k, names, heq, hnames, hrooted⟩ := h
        rw [reverse_cons] at heq
        show IsClean rooted (if top = ".." then ".." :: top :: rest else rest).reverse
        rcases eq_nil_or_concat names with rfl | ⟨front, last, rfl⟩
        · -- Only steps up so far: the new one joins them.
          rw [append_nil] at heq
          have htop : top = ".." := eq_of_mem_replicate (heq ▸ mem_concat_self)
          refine ⟨k + 1, [], ?_, by simp, ?_⟩
          · rw [if_pos htop, reverse_cons, reverse_cons, heq, append_nil, replicate_succ']
          · intro hr
            rw [hrooted hr] at heq
            simp at heq
        · -- The last name goes.
          rw [concat_eq_append, ← append_assoc] at heq
          obtain ⟨hrest, htop⟩ := append_inj' heq rfl
          rw [singleton_inj] at htop
          have hlast : IsName top := htop ▸ hnames last (by simp)
          rw [if_neg hlast.2.2]
          exact ⟨k, front, hrest, fun name hname => hnames name (by simp [hname]), hrooted⟩
    · rename_i hup
      obtain ⟨k, names, heq, hnames, hrooted⟩ := h
      refine ⟨k, names ++ [part], by rw [reverse_cons, heq, append_assoc], ?_, hrooted⟩
      exact forall_mem_append.2 ⟨hnames, forall_mem_singleton.2 ⟨hpart.1, hpart.2, hup⟩⟩

theorem isClean_cleanParts (rooted : Bool) (ps : List String) : IsClean rooted (cleanParts rooted ps) := by
  have hrun : ∀ kept : List String, IsClean rooted kept.reverse →
      IsClean rooted (ps.foldl (keepPart rooted) kept).reverse := by
    induction ps with
    | nil => exact fun kept h => h
    | cons p ps ih => exact fun kept h => ih _ (isClean_keepPart h p)
  exact hrun [] ⟨0, [], rfl, by simp, by simp⟩

theorem foldl_keepPart_names (rooted : Bool) (h : ∀ name ∈ names, IsName name)
    (kept : List String) : names.foldl (keepPart rooted) kept = names.reverse ++ kept := by
  induction names generalizing kept with
  | nil => rfl
  | cons name names ih =>
    obtain ⟨hname, hnames⟩ := forall_mem_cons.1 h
    have hkeep : keepPart rooted kept name = name :: kept := by
      unfold keepPart
      rw [if_neg (not_or.2 ⟨hname.1, hname.2.1⟩), if_neg hname.2.2]
    rw [foldl_cons, hkeep, ih hnames]
    simp

theorem cleanParts_append (rooted : Bool) (ps : List String)
    (h : ∀ name ∈ names, IsName name) : cleanParts rooted (ps ++ names) = cleanParts rooted ps ++ names := by
  rw [cleanParts, foldl_append, foldl_keepPart_names rooted h, reverse_append, reverse_reverse]
  rfl

theorem IsClean.cleanParts_eq (h : IsClean rooted ps) : cleanParts rooted ps = ps := by
  obtain ⟨k, names, rfl, hnames, hrooted⟩ := h
  have hups : cleanParts rooted (replicate k "..") = replicate k ".." := by
    cases rooted with
    | true => rw [hrooted rfl]; rfl
    | false =>
      have hrun : ∀ j, (replicate k "..").foldl (keepPart false) (replicate j "..") =
          replicate (j + k) ".." := by
        induction k with
        | zero => exact fun j => rfl
        | succ k ih =>
          intro j
          have hstep : keepPart false (replicate j "..") ".." = replicate (j + 1) ".." := by
            cases j with
            | zero => rfl
            | succ j => simp [keepPart, replicate_succ]
          rw [replicate_succ, foldl_cons, hstep, ih (by simp)]
          congr 1
          omega
      have hrun := hrun 0
      rw [replicate_zero, Nat.zero_add] at hrun
      rw [cleanParts, hrun, reverse_replicate]
  rw [cleanParts_append rooted _ hnames, hups]

/-- What stands before the clean parts of a path. -/
def lead (rooted : Bool) : List String := if rooted then [""] else []

theorem mem_of_mem_keepPart {kept : List String} {part p : String}
    (h : p ∈ keepPart rooted kept part) : p = part ∨ p ∈ kept := by
  unfold keepPart at h
  split at h
  · exact .inr h
  · split at h
    · rename_i hup
      cases kept with
      | nil =>
        cases rooted
        · exact .inl ((mem_singleton.1 h).trans hup.symm)
        · cases h
      | cons top rest =>
        replace h : p ∈ if top = ".." then ".." :: top :: rest else rest := h
        split at h
        · exact (mem_cons.1 h).imp (·.trans hup.symm) id
        · exact .inr (mem_cons_of_mem top h)
    · exact mem_cons.1 h

theorem mem_of_mem_cleanParts {p : String} (h : p ∈ cleanParts rooted ps) : p ∈ ps := by
  have hrun : ∀ kept : List String, p ∈ ps.foldl (keepPart rooted) kept → p ∈ ps ∨ p ∈ kept := by
    clear h
    induction ps with
    | nil => exact fun kept h => .inr h
    | cons q ps ih =>
      intro kept h
      rcases ih _ h with h | h
      · exact .inl (mem_cons_of_mem q h)
      · exact (mem_of_mem_keepPart h).imp (fun heq : p = q => heq ▸ mem_cons_self) id
  simpa using hrun [] (mem_reverse.1 h)

theorem IsClean.empty_notMem (h : IsClean rooted ps) : "" ∉ ps := by
  obtain ⟨k, names, rfl, hnames, -⟩ := h
  rw [mem_append, not_or]
  exact ⟨fun h => absurd (eq_of_mem_replicate h) (by decide), fun h => (hnames "" h).1 rfl⟩

theorem IsClean.append (h : IsClean rooted ps)
    (hnames : ∀ name ∈ names, IsName name) : IsClean rooted (ps ++ names) := by
  obtain ⟨k, names', rfl, hnames', hk⟩ := h
  exact ⟨k, names' ++ names, append_assoc _ _ _, forall_mem_append.2 ⟨hnames', hnames⟩, hk⟩

/-- The parts of a cleaned path that does not end where it starts. -/
theorem parts_clean (hne : cleanParts (isRooted path) (parts path) ≠ []) :
    parts (clean path) = lead (isRooted path) ++ cleanParts (isRooted path) (parts path) := by
  have htext : parts ("/".intercalate (cleanParts (isRooted path) (parts path))) =
      cleanParts (isRooted path) (parts path) :=
    parts_intercalate hne fun p hp => slash_notMem_of_mem_parts (mem_of_mem_cleanParts hp)
  rw [clean]
  cases hrooted : isRooted path with
  | true =>
    rw [hrooted] at htext
    show parts ("" ++ "/" ++ _) = _
    rw [parts_append, htext]
    rfl
  | false =>
    rw [hrooted] at htext
    have hempty : "/".intercalate (cleanParts false (parts path)) ≠ "" := by
      intro h
      rw [h] at htext
      exact (isClean_cleanParts false (parts path)).empty_notMem (htext ▸ mem_cons_self)
    simp [hempty, htext, lead]

theorem isRooted_append (hne : path ≠ "") (below : String) : isRooted (path ++ below) = isRooted path := by
  rw [isRooted, isRooted, String.toList_append]
  cases hpath : path.toList with
  | nil => exact absurd (String.toList_eq_nil_iff.1 hpath) hne
  | cons c cs =>
    have hlead : ∀ ds : List Char, hasLead ['/'] (c :: ds) = decide ('/' = c) := by
      intro ds
      rw [hasLead, stripLead?]
      split
      · rename_i hc
        rw [decide_eq_true hc]
        rfl
      · rename_i hc
        rw [decide_eq_false hc]
        rfl
    rw [cons_append, hlead, hlead]

theorem isRooted_of_isDescent (h : IsDescent below) : isRooted below = false := by
  rw [Bool.eq_false_iff, ne_eq, isRooted_eq_true_iff]
  rintro ⟨ps, -, hps⟩
  exact (h "" (hps ▸ mem_cons_self)).1 rfl

/-- **A path below a directory** has the clean parts of the directory and then its own. -/
theorem parts_join (path : String) (h : IsDescent below) :
    parts (join path below) =
      lead (isRooted path) ++ (cleanParts (isRooted path) (parts path) ++ parts below) := by
  have hbelow : below ≠ "" := by
    rintro rfl
    exact absurd h (by decide)
  have hparts : ∀ ps : List String, ps ++ parts below ≠ [] := fun ps => by simp [parts_ne_nil]
  rw [join, if_neg (fun hboth => hbelow hboth.2)]
  by_cases hpath : path = ""
  · rw [if_pos hpath, hpath]
    have hclean : cleanParts (isRooted below) (parts below) = parts below := cleanParts_append _ [] h
    rw [parts_clean (by rw [hclean]; exact parts_ne_nil below), hclean, isRooted_of_isDescent h]
    rfl
  · rw [if_neg hpath, if_neg hbelow]
    have hrooted : isRooted (path ++ "/" ++ below) = isRooted path := by
      rw [String.append_assoc, isRooted_append hpath]
    have hclean : cleanParts (isRooted (path ++ "/" ++ below)) (parts (path ++ "/" ++ below)) =
        cleanParts (isRooted path) (parts path) ++ parts below := by
      rw [hrooted, parts_append, cleanParts_append _ _ h]
    rw [parts_clean (by rw [hclean]; exact hparts _), hclean, hrooted]

theorem isRooted_of_parts (hparts : parts path = lead rooted ++ ps)
    (hne : ps ≠ []) (hclean : IsClean rooted ps) : isRooted path = rooted := by
  rw [Bool.eq_iff_iff, isRooted_eq_true_iff, hparts]
  cases rooted with
  | true => simp [lead, hne]
  | false =>
    refine iff_of_false ?_ (by simp)
    rintro ⟨qs, -, hqs⟩
    rw [show ps = "" :: qs from hqs] at hclean
    exact hclean.empty_notMem mem_cons_self

theorem isRooted_join (path : String) (h : IsDescent below) : isRooted (join path below) = isRooted path :=
  isRooted_of_parts (parts_join path h) (by simp [parts_ne_nil]) ((isClean_cleanParts _ _).append h)

theorem cleanParts_join (path : String) (h : IsDescent below) :
    cleanParts (isRooted path) (parts (join path below)) = cleanParts (isRooted path) (parts path) ++ parts below := by
  have hlead : ∀ (rooted : Bool) (ps : List String), cleanParts rooted (lead rooted ++ ps) = cleanParts rooted ps := by
    intro rooted ps
    cases rooted <;> rfl
  rw [parts_join path h, hlead, cleanParts_append _ _ h, (isClean_cleanParts _ _).cleanParts_eq]

end Files

namespace FileTree

/-! ### Addresses -/

/-- One step along a path. -/
def follow (a : FileAddress) (part : String) : FileAddress :=
  if part = "" ∨ part = "." then a else if part = ".." then a.dropLast else a ++ [part]

theorem follow_name (a : FileAddress) {part : String} (h : IsName part) : follow a part = a ++ [part] := by
  rw [follow, if_neg (not_or.2 ⟨h.1, h.2.1⟩), if_neg h.2.2]

theorem foldl_follow_names (a : FileAddress) (h : ∀ name ∈ names, IsName name) :
    names.foldl follow a = a ++ names := by
  induction names generalizing a with
  | nil => simp
  | cons name names ih =>
    obtain ⟨hname, hnames⟩ := forall_mem_cons.1 h
    rw [foldl_cons, follow_name a hname, ih _ hnames, append_assoc]
    rfl

/-- Steps up stay on the way to where they started. -/
theorem foldl_follow_ups (a : FileAddress) {ups : List String} (h : ∀ part ∈ ups, part = "" ∨ part = "..") :
    ups.foldl follow a <+: a := by
  induction ups generalizing a with
  | nil => exact prefix_refl a
  | cons part ups ih =>
    obtain ⟨hpart, hups⟩ := forall_mem_cons.1 h
    rcases hpart with rfl | rfl
    · exact ih a hups
    · exact (ih _ hups).trans (List.dropLast_prefix a)

/-- The place to which a path leads. -/
def address (t : FileTree) (path : String) : FileAddress := (t.start path).2.foldl follow (t.start path).1

/-- The place of a directory, told from the clean parts of its path. -/
def place (t : FileTree) (path : String) : FileAddress :=
  (cleanParts (isRooted path) (parts path)).foldl follow (if isRooted path then [] else t.home)

section

variable {t t' : FileTree} (h : t'.workingDirectory = t.workingDirectory)
include h

theorem home_congr : t'.home = t.home := by
  rw [home, home, h]

theorem place_congr (path : String) : t'.place path = t.place path := by
  rw [place, place, home_congr h]

theorem start_congr (path : String) : t'.start path = t.start path := by
  rw [start, start, home_congr h, h]

end

theorem place_join (t : FileTree) (path : String) (h : IsDescent below) :
    t.place (join path below) = t.place path ++ parts below := by
  rw [place, isRooted_join path h, cleanParts_join path h, foldl_append, foldl_follow_names _ h]
  rfl

/-- A path that passes only through places above its end or above the working directory. -/
def IsDirect (t : FileTree) (path : String) : Prop :=
  ∀ ps, ps <+: (t.start path).2 →
    ps.foldl follow (t.start path).1 <+: t.home ∨ ps.foldl follow (t.start path).1 <+: t.address path

/-- Steps up from a place above the working directory, and then names. -/
theorem isDirect_of_start {t : FileTree} {a : FileAddress} (ups : List String)
    (hstart : t.start path = (a, ups ++ names)) (ha : a <+: t.home) (hups : ∀ part ∈ ups, part = "" ∨ part = "..")
    (hnames : ∀ name ∈ names, IsName name) : t.IsDirect path := by
  intro ps hps
  rw [address]
  rw [hstart] at hps ⊢
  rcases prefix_or_prefix_of_prefix hps (prefix_append ups names) with hshort | ⟨qs, rfl⟩
  · exact .inl ((foldl_follow_ups a fun part hpart => hups part (hshort.subset hpart)).trans ha)
  · have hqs : qs <+: names := (prefix_append_right_inj ups).1 hps
    right
    rw [foldl_append, foldl_append, foldl_follow_names _ hnames,
      foldl_follow_names _ fun name hname => hnames name (hqs.subset hname)]
    exact (prefix_append_right_inj _).2 hqs

section Rooted

variable {t : FileTree} (hrooted : isRooted t.workingDirectory = true)
include hrooted

/-- A path that does not start at the root is followed from the working directory. -/
theorem start_of_relative (hpath : isRooted path = false) : t.start path = (t.home, parts path) := by
  have hne : path ≠ t.workingDirectory := by
    rintro rfl
    rw [hrooted] at hpath
    cases hpath
  have hlead : stripLead? (t.workingDirectory ++ "/").toList path.toList = none := by
    rw [← Option.not_isSome_iff_eq_none]
    intro hsome
    obtain ⟨rest, hrest⟩ := Option.isSome_iff_exists.1 hsome
    rw [stripLead?_eq_some_iff, ← String.toList_ofList (l := rest), ← String.toList_append,
      String.toList_inj, String.append_assoc] at hrest
    have hempty : t.workingDirectory ≠ "" := by
      intro hempty
      rw [hempty] at hrooted
      cases hrooted
    rw [hrest, isRooted_append hempty, hrooted] at hpath
    cases hpath
  simp only [start, hne, hlead, hpath, Bool.false_eq_true, ↓reduceIte]

/-- A path from the root is followed from there, or from the working directory if it leads through it. -/
theorem start_of_rooted (hparts : parts path = "" :: names) (hne : names ≠ [])
    (hnames : ∀ name ∈ names, IsName name) :
    t.start path = ([], "" :: names) ∨ ∃ ps, t.start path = (t.home, ps) ∧ t.home ++ ps = names := by
  have hpath : isRooted path = true := isRooted_eq_true_iff.2 ⟨names, hne, hparts⟩
  have hfilter : ∀ ns : List String, (∀ n ∈ ns, IsName n) → ns.filter (· ≠ "") = ns := fun ns hns =>
    filter_eq_self.2 fun n hn => by simpa using (hns n hn).1
  by_cases hself : path = t.workingDirectory
  · refine .inr ⟨[], by simp [start, hself], ?_⟩
    rw [home, ← hself, hparts, append_nil]
    exact hfilter names hnames
  · cases hlead : stripLead? (t.workingDirectory ++ "/").toList path.toList with
    | none => exact .inl (by simp only [start, hself, hlead, hpath, hparts, ↓reduceIte])
    | some rest =>
      refine .inr ⟨parts (String.ofList rest), by simp only [start, hself, hlead, ↓reduceIte], ?_⟩
      rw [stripLead?_eq_some_iff, ← String.toList_ofList (l := rest), ← String.toList_append,
        String.toList_inj] at hlead
      -- The parts of the working directory come first.
      rw [hlead, parts_append] at hparts
      obtain ⟨ps, -, hhome⟩ := isRooted_eq_true_iff.1 hrooted
      rw [hhome, cons_append, cons.injEq] at hparts
      have hps : ∀ p ∈ ps, IsName p := fun p hp => hnames p (hparts.2 ▸ mem_append_left _ hp)
      rw [home, hhome, ← hparts.2]
      exact congrArg (· ++ _) (hfilter ps hps)

/-- **A clean path** leads where its parts tell, on a direct way. -/
theorem address_of_isClean (hparts : parts path = lead rooted ++ ps)
    (hne : ps ≠ []) (hclean : IsClean rooted ps) :
    t.address path = ps.foldl follow (if rooted then [] else t.home) ∧ t.IsDirect path := by
  have hpath := isRooted_of_parts hparts hne hclean
  obtain ⟨k, names, rfl, hnames, hk⟩ := hclean
  cases rooted with
  | true =>
    rw [hk rfl, replicate_zero, nil_append] at hparts hne ⊢
    replace hparts : parts path = "" :: names := hparts
    rcases start_of_rooted hrooted hparts hne hnames with hstart | ⟨qs, hstart, heq⟩
    · refine ⟨by rw [address, hstart]; rfl, ?_⟩
      exact isDirect_of_start [""] hstart nil_prefix (by simp) hnames
    · have hqs : ∀ q ∈ qs, IsName q := fun q hq => hnames q (heq ▸ mem_append_right _ hq)
      refine ⟨?_, isDirect_of_start [] hstart (prefix_refl _) (by simp) hqs⟩
      rw [address, hstart, foldl_follow_names _ hqs, heq, if_pos rfl, foldl_follow_names _ hnames]
      rfl
  | false =>
    have hstart : t.start path = (t.home, replicate k ".." ++ names) := by
      rw [start_of_relative hrooted hpath, hparts]
      rfl
    refine ⟨by rw [address, hstart]; rfl, ?_⟩
    exact isDirect_of_start _ hstart (prefix_refl _) (fun part hpart => .inr (eq_of_mem_replicate hpart)) hnames

/-- **A path below a directory** leads to a place below that of the directory, on a direct way. -/
theorem address_join_and_isDirect (path : String) (h : IsDescent below) :
    t.address (join path below) = t.place path ++ parts below ∧ t.IsDirect (join path below) := by
  have hjoin := address_of_isClean hrooted (parts_join path h) (by simp [parts_ne_nil])
    ((isClean_cleanParts _ _).append h)
  rwa [foldl_append, foldl_follow_names _ h] at hjoin

theorem address_join (path : String) (h : IsDescent below) :
    t.address (join path below) = t.place path ++ parts below :=
  (address_join_and_isDirect hrooted path h).1

end Rooted

end FileTree

end ServiceCompiler
