import ServiceCompiler.Proofs.Files.Change

namespace ServiceCompiler

open Files List

/-!
# Directories on the way

A directory is made after those above it: one after the other, the beginnings of its path.

* `leads_append`, `path_induction` — the beginnings, part by part.
* `address_of_mem_leads` — of a joined path, they lead to places above its end or above the working directory.
* `resolve_append` — whether one more part can be followed depends only on the directory before it.
* `FileTree.Fits` — a tree in which nothing stands in the way of another one; `makeDirectories_of_fits` — there, the
  directories of the other one can be made.
-/

variable {path : String} {part p : String} {rooted : Bool} {ps : List String}

namespace Files

/-- One more part of a path: the beginnings so far, the latest first, and the latest of all. -/
def addLead (acc : List String × Option String) (part : String) : List String × Option String :=
  let lead := acc.2.elim part (· ++ "/" ++ part)
  (lead :: acc.1, some lead)

theorem leads_eq (path : String) :
    leads path = (((parts path).foldl addLead ([], none)).1.reverse).filter (· ≠ "") := by
  rw [leads]
  congr 4
  funext acc part
  rcases acc with ⟨_, _ | _⟩ <;> rfl

theorem foldl_addLead_snd (ps acc : List String) (before : String) :
    (ps.foldl addLead (acc, some before)).2 = some ("/".intercalate (before :: ps)) := by
  induction ps generalizing acc before with
  | nil => simp
  | cons p ps ih =>
    rw [foldl_cons, addLead, ih]
    cases ps <;> simp [String.append_assoc]

/-- The beginnings of a path with one more part. -/
theorem leads_append (path : String) (h : '/' ∉ part.toList) :
    leads (path ++ "/" ++ part) = leads path ++ [path ++ "/" ++ part] := by
  have hlast : ((parts path).foldl addLead ([], none)).2 = some path := by
    conv => rhs; rw [← intercalate_parts path]
    obtain ⟨p, ps, hparts⟩ := exists_cons_of_ne_nil (parts_ne_nil path)
    rw [hparts]
    exact foldl_addLead_snd ps [p] p
  rw [leads_eq, leads_eq, parts_append, parts_of_notMem h, foldl_append, foldl_cons, foldl_nil,
    addLead, hlast, reverse_cons, filter_append]
  simp

theorem leads_part (h : '/' ∉ part.toList) : leads part = [part].filter (· ≠ "") := by
  rw [leads_eq, parts_of_notMem h]
  rfl

/-- A path is one part, or a path with one more part. -/
theorem path_induction {motive : String → Prop} (part : ∀ p, '/' ∉ p.toList → motive p)
    (append : ∀ path p, '/' ∉ p.toList → motive path → motive (path ++ "/" ++ p)) (path : String) : motive path := by
  generalize hps : parts path = ps
  induction ps using reverseRecOn generalizing path with
  | nil => exact absurd hps (parts_ne_nil path)
  | append_singleton ps p ih =>
    have hall : ∀ q ∈ ps ++ [p], '/' ∉ q.toList := fun q hq => slash_notMem_of_mem_parts (hps ▸ hq)
    obtain ⟨hslash, hp⟩ := forall_mem_append.1 hall
    replace hp := hp p mem_cons_self
    by_cases hne : ps = []
    · subst hne
      obtain rfl : path = p := parts_injective (hps.trans (parts_of_notMem hp).symm)
      exact part path hp
    · have hbefore := parts_intercalate hne hslash
      have hpath : path = "/".intercalate ps ++ "/" ++ p :=
        parts_injective (by rw [hps, parts_append, hbefore, parts_of_notMem hp])
      rw [hpath]
      exact append _ p hp (ih _ hbefore)

theorem mem_leads_self (h : path ≠ "") : path ∈ leads path := by
  induction path using path_induction with
  | part p hp => simp [leads_part hp, h]
  | append path p hp _ => simp [leads_append path hp]

theorem parts_of_mem_leads (h : p ∈ leads path) : p ≠ "" ∧ parts p <+: parts path := by
  induction path using path_induction with
  | part q hq =>
    rw [leads_part hq, mem_filter, mem_singleton] at h
    obtain ⟨rfl, hne⟩ := h
    exact ⟨by simpa using hne, prefix_refl _⟩
  | append path q hq ih =>
    rw [leads_append path hq, mem_append, mem_singleton] at h
    rcases h with h | rfl
    · exact ⟨(ih h).1, (ih h).2.trans (parts_append path q ▸ prefix_append _ _)⟩
    · exact ⟨by simp, prefix_refl _⟩

/-- Behind the root, the beginnings of a path have the beginnings of its parts. -/
theorem exists_parts_of_mem_leads (hparts : parts path = lead rooted ++ ps) (h : p ∈ leads path) :
    ∃ qs, parts p = lead rooted ++ qs ∧ qs ≠ [] ∧ qs <+: ps := by
  obtain ⟨hempty, hprefix⟩ := parts_of_mem_leads h
  rw [hparts] at hprefix
  cases rooted with
  | false => exact ⟨parts p, rfl, parts_ne_nil p, hprefix⟩
  | true =>
    obtain ⟨q, qs, hqs⟩ := exists_cons_of_ne_nil (parts_ne_nil p)
    obtain ⟨rfl, htail⟩ : q = "" ∧ qs <+: ps := cons_prefix_cons.1 (hqs ▸ hprefix)
    refine ⟨qs, hqs, ?_, htail⟩
    rintro rfl
    exact hempty (parts_injective hqs)

/-- The parent of a clean path is the path without its last part. -/
theorem parent_append (hparts : parts path = lead rooted ++ ps) (hclean : IsClean rooted ps) (hempty : path ≠ "")
    (hpart : '/' ∉ part.toList) : parent (path ++ "/" ++ part) = path := by
  have hcut : Text.cutLast? '/' (path ++ "/" ++ part).toList = some (path.toList, part.toList) := by
    rw [show (path ++ "/" ++ part).toList = path.toList ++ '/' :: part.toList by simp, Text.cutLast?_of_notMem hpart]
  have htext : String.ofList (path.toList ++ ['/']) = path ++ "/" ++ "" := by
    rw [← String.toList_inj]
    simp
  have hne : ps ≠ [] := by
    rintro rfl
    cases rooted with
    | true => exact hempty (parts_injective hparts)
    | false => exact parts_ne_nil path hparts
  have hrooted : isRooted (path ++ "/" ++ "") = rooted := by
    rw [String.append_assoc, isRooted_append hempty, isRooted_of_parts hparts hne hclean]
  have hkept : cleanParts rooted (parts (path ++ "/" ++ "")) = ps := by
    rw [parts_append, hparts]
    refine Eq.trans ?_ hclean.cleanParts_eq
    cases rooted <;> simp [cleanParts, lead, keepPart, parts_of_notMem]
  simp only [parent, hcut, htext]
  refine parts_injective ?_
  rw [parts_clean (by rwa [hrooted, hkept]), hrooted, hkept, hparts]

end Files

namespace FileTree

variable {t u : FileTree}

/-- A beginning of clean parts is clean, and leads to a place above the start or above the end. -/
theorem foldl_follow_of_leading {qs : List String} (h : IsClean rooted ps) (hqs : qs <+: ps) (a : FileAddress) :
    IsClean rooted qs ∧ (qs.foldl follow a <+: a ∨ qs.foldl follow a <+: ps.foldl follow a) := by
  obtain ⟨k, names, rfl, hnames, hk⟩ := h
  rcases prefix_or_prefix_of_prefix hqs (prefix_append _ names) with hups | ⟨rest, rfl⟩
  · have hup : ∀ q ∈ qs, q = ".." := fun q hq => eq_of_mem_replicate (hups.subset hq)
    refine ⟨⟨qs.length, [], ?_, by simp, fun hr => ?_⟩, .inl (foldl_follow_ups a fun q hq => .inr (hup q hq))⟩
    · simpa using eq_replicate_of_mem hup
    · simpa [hk hr] using hups.length_le
  · have hrest := (prefix_append_right_inj _).1 hqs
    have hnames' : ∀ name ∈ rest, IsName name := fun name hname => hnames name (hrest.subset hname)
    refine ⟨⟨k, rest, rfl, hnames', hk⟩, .inr ?_⟩
    rw [foldl_append, foldl_append, foldl_follow_names _ hnames, foldl_follow_names _ hnames']
    exact (prefix_append_right_inj _).2 hrest

/-- **The directories above a joined path** lie above its end, or above the working directory. -/
theorem address_of_mem_leads (hrooted : isRooted t.workingDirectory = true) {below : String} (h : IsDescent below)
    (hp : p ∈ leads (join path below)) : t.address p <+: t.home ∨ t.address p <+: t.place path ++ parts below := by
  obtain ⟨qs, hqs, hne, hprefix⟩ := exists_parts_of_mem_leads (parts_join path h) hp
  obtain ⟨hclean, hplace⟩ := foldl_follow_of_leading ((isClean_cleanParts _ _).append h) hprefix
    (if isRooted path then [] else t.home)
  rw [foldl_append, foldl_follow_names _ h] at hplace
  rw [(address_of_isClean hrooted hqs hne hclean).1]
  refine hplace.imp_left fun hbase => hbase.trans ?_
  split
  · exact nil_prefix
  · exact prefix_refl _

/-! ### One more part -/

/-- One more part behind a path that is looked for a lead that ends with a slash. -/
theorem stripLead?_append_part {lead path part rest : List Char} (hpart : '/' ∉ part) :
    Text.stripLead? (lead ++ ['/']) (path ++ '/' :: part) = some rest ↔ path = lead ∧ rest = part ∨
      ∃ below, Text.stripLead? (lead ++ ['/']) path = some below ∧ rest = below ++ '/' :: part := by
  simp only [Text.stripLead?_eq_some_iff]
  constructor
  · intro h
    rcases append_eq_append_iff.1 h with ⟨mid, hlead, hmid⟩ | ⟨below, hpath, hrest⟩
    · rcases eq_nil_or_concat mid with rfl | ⟨front, last, rfl⟩
      · exact .inr ⟨[], by simpa using hlead.symm, by simpa using hmid.symm⟩
      · -- The slash that ends the lead is the one before the part, which has none.
        rw [concat_eq_append, ← append_assoc] at hlead
        obtain ⟨rfl, hlast⟩ := append_inj' hlead rfl
        obtain rfl : '/' = last := by simpa using hlast
        cases front with
        | nil => exact .inl ⟨(append_nil _).symm, by simpa using hmid.symm⟩
        | cons c front =>
          rw [concat_eq_append, cons_append, cons_append, cons.injEq] at hmid
          exact absurd (hmid.2 ▸ by simp) hpart
    · exact .inr ⟨below, hpath, hrest⟩
  · rintro (⟨rfl, rfl⟩ | ⟨below, rfl, rfl⟩) <;> simp

/-- Where a path starts that goes on behind a slash; nothing before the slash is the root. -/
def base (t : FileTree) (path : String) : FileAddress × List String := if path = "" then ([], [""]) else t.start path

/-- A path with one more part starts where it did, unless it is the working directory then. -/
theorem start_append (hrooted : isRooted t.workingDirectory = true) (hpart : '/' ∉ part.toList)
    (hself : path ++ "/" ++ part ≠ t.workingDirectory) :
    t.start (path ++ "/" ++ part) = ((t.base path).1, (t.base path).2 ++ [part]) := by
  have hparts : ∀ p : String, parts (p ++ "/" ++ part) = parts p ++ [part] := fun p => by
    rw [parts_append, parts_of_notMem hpart]
  have hempty : t.workingDirectory ≠ "" := fun h => absurd (h ▸ hrooted) (by decide)
  have htext : (path ++ "/" ++ part).toList = path.toList ++ '/' :: part.toList := by simp
  have hlead : (t.workingDirectory ++ "/").toList = t.workingDirectory.toList ++ ['/'] := by simp
  simp only [base, start, hself, if_false, htext, hlead]
  cases hstrip : Text.stripLead? (t.workingDirectory.toList ++ ['/']) (path.toList ++ '/' :: part.toList) with
  | some rest =>
    rcases (stripLead?_append_part hpart).1 hstrip with ⟨hpath, rfl⟩ | ⟨below, hbelow, rfl⟩
    · obtain rfl := String.toList_inj.1 hpath
      simp only [hempty, if_false, if_true, String.ofList_toList, parts_of_notMem hpart, nil_append]
    · have hlength := congrArg length (Text.stripLead?_eq_some_iff.1 hbelow)
      have hwork : path ≠ t.workingDirectory := by
        rintro rfl
        simp at hlength
      have hne : path ≠ "" := by
        rintro rfl
        simp at hlength
      have hrest : String.ofList (below ++ '/' :: part.toList) = String.ofList below ++ "/" ++ part := by
        rw [← String.toList_inj]
        simp
      simp only [hne, hwork, if_false, hbelow, hrest, hparts]
  | none =>
    have hwork : path ≠ t.workingDirectory := by
      rintro rfl
      rw [(stripLead?_append_part hpart).2 (.inl ⟨rfl, rfl⟩)] at hstrip
      cases hstrip
    have hbelow : Text.stripLead? (t.workingDirectory.toList ++ ['/']) path.toList = none := by
      refine Option.eq_none_iff_forall_not_mem.2 fun below hbelow => ?_
      rw [(stripLead?_append_part hpart).2 (.inr ⟨below, hbelow, rfl⟩)] at hstrip
      cases hstrip
    by_cases hne : path = ""
    · subst hne
      simp only [if_true, hparts, isRooted_append (by decide : ("" ++ "/" : String) ≠ "")]
      rfl
    · simp only [hne, hwork, if_false, hbelow, hparts]
      rw [String.append_assoc, isRooted_append hne]
      split <;> rfl

theorem walk_nil (t : FileTree) (a : FileAddress) : t.walk a [] = .ok a := rfl

/-- A walk with one more part goes on from a directory. -/
theorem walk_append {a : FileAddress} :
    (∃ b, t.walk a (ps ++ [part]) = .ok b) ↔ ∃ b, t.walk a ps = .ok b ∧ t.get? b = some .directory ∧
      (IsName part → Text.octetCount part ≤ maxNameSize) := by
  induction ps generalizing a with
  | nil => simp [walk_cons_iff, walk_nil]
  | cons p ps ih => simp only [cons_append, walk_cons_iff, exists_and_left, ih, and_assoc]

/-- **One more part** can be followed from a directory, as it is in another tree. -/
theorem resolve_append (hrooted : isRooted t.workingDirectory = true)
    (hsame : u.workingDirectory = t.workingDirectory) (hpart : '/' ∉ part.toList)
    (h : ∃ a, t.resolve (path ++ "/" ++ part) = .ok a) (hpath : path ≠ "" → u.stat path = .ok .directory) :
    ∃ a, u.resolve (path ++ "/" ++ part) = .ok a := by
  simp only [resolve_eq_ok_iff, exists_and_left] at h ⊢
  refine ⟨h.1, ?_⟩
  by_cases hself : path ++ "/" ++ part = t.workingDirectory
  · exact ⟨u.home, by simp [start, hsame, hself, walk]⟩
  · rw [start_append hrooted hpart hself, walk_append] at h
    obtain ⟨-, -, -, -, hname⟩ := h
    rw [start_append (hsame ▸ hrooted) hpart (hsame ▸ hself), walk_append, base]
    split
    · have hroot := get?_of_prefix_home (t := u) (List.nil_prefix (l := u.home))
      exact ⟨[], walk_cons_iff.2 ⟨hroot, fun h => absurd rfl h.1, rfl⟩, hroot, hname⟩
    · obtain ⟨hresolve, hdirectory⟩ := stat_eq_ok_iff.1 (hpath ‹_›)
      exact ⟨_, (resolve_eq_ok_iff.1 hresolve).2, hdirectory, hname⟩

/-! ### Trees that fit a later one -/

/-- Directories stand where there are directories in the other tree, and files where there are none. -/
structure Fits (u t : FileTree) : Prop where
  workingDirectory : u.workingDirectory = t.workingDirectory
  get? : ∀ a entry, u.get? a = some entry → (entry = .directory ↔ t.get? a = some .directory)

theorem makeEach_append (t : FileTree) (paths paths' : List String) :
    t.makeEach (paths ++ paths') = match t.makeEach paths with
      | (.ok (), t') => t'.makeEach paths'
      | (.error e, t') => (.error e, t') := by
  induction paths generalizing t with
  | nil => rfl
  | cons path rest ih =>
    rw [cons_append, makeEach, makeEach]
    cases t.makeDirectory path with
    | error e => rfl
    | ok t' => exact ih t'

theorem Fits.makeEach (h : Fits u t) {paths : List String} (hpaths : ∀ p ∈ paths, t.stat p = .ok .directory) :
    Fits (u.makeEach paths).2 t := by
  have hadds := adds_makeEach u paths
  refine ⟨hadds.workingDirectory.trans h.workingDirectory, fun a entry hentry => ?_⟩
  rcases hadds.get? a id with heq | ⟨⟨p, hp, rfl⟩, -, hdirectory⟩
  · exact h.get? a entry (heq ▸ hentry)
  · obtain rfl := Option.some.inj (hentry.symm.trans hdirectory)
    rw [address_congr h.workingDirectory]
    exact iff_of_true rfl (stat_eq_ok_iff.1 (hpaths p hp)).2

/-- A file can be written where one stands in the other tree. -/
theorem Fits.exists_write (h : Fits u t) {content : String} (hread : t.read path = .ok content)
    (hresolve : ∃ a, u.resolve path = .ok a) (content' : String) :
    ∃ u', u.write path content' = .ok u' ∧ Fits u' t := by
  obtain ⟨a, hresolve⟩ := hresolve
  obtain rfl := address_of_resolve hresolve
  rw [read_eq_ok_iff, ← address_congr h.workingDirectory] at hread
  have hfile : t.get? (u.address path) ≠ some .directory := by
    rw [hread.2]
    nofun
  have hfree : u.get? (u.address path) ≠ some .directory := fun hdirectory => hfile ((h.get? _ _ hdirectory).1 rfl)
  refine ⟨_, write_eq_ok_iff.2 ⟨hresolve, hfree, rfl⟩, h.workingDirectory, fun b entry hentry => ?_⟩
  by_cases hb : b = u.address path
  · subst hb
    rw [get?_put hfree] at hentry
    cases hentry
    exact iff_of_false (fun heq => nomatch heq) hfile
  · exact h.get? b entry (get?_put_of_ne u _ hb ▸ hentry)

theorem exists_makeDirectory (h : Fits u t) (hstat : t.stat path = .ok .directory)
    (hresolve : ∃ a, u.resolve path = .ok a) : ∃ u', u.makeDirectory path = .ok u' := by
  obtain ⟨a, hresolve⟩ := hresolve
  obtain rfl := address_of_resolve hresolve
  rw [stat_eq_ok_iff, ← address_congr h.workingDirectory] at hstat
  simp only [makeDirectory_eq_ok_iff, hresolve, true_and]
  cases hentry : u.get? (u.address path) with
  | none => exact ⟨_, .inr ⟨rfl, rfl⟩⟩
  | some entry => exact ⟨_, .inl ⟨congrArg some ((h.get? _ entry hentry).2 hstat.2), rfl⟩⟩

/-- One part can be followed from the working directory. -/
theorem resolve_part (hrooted : isRooted t.workingDirectory = true)
    (hsame : u.workingDirectory = t.workingDirectory) (hpart : '/' ∉ part.toList) (h : ∃ a, t.resolve part = .ok a) :
    ∃ a, u.resolve part = .ok a := by
  have hrelative : isRooted part = false := by
    rw [Bool.eq_false_iff, ne_eq, isRooted_eq_true_iff, parts_of_notMem hpart]
    simp
  have hstart : ∀ s : FileTree, s.workingDirectory = t.workingDirectory → s.start part = (s.home, [] ++ [part]) :=
    fun s hs => by rw [start_of_relative (hs ▸ hrooted) hrelative, parts_of_notMem hpart, nil_append]
  simp only [resolve_eq_ok_iff, exists_and_left] at h ⊢
  rw [hstart t rfl, walk_append] at h
  rw [hstart u hsame, walk_append]
  obtain ⟨husable, -, -, -, hname⟩ := h
  exact ⟨husable, u.home, rfl, get?_of_prefix_home (prefix_refl _), hname⟩

/-- **A directory can be made** in every tree that fits one in which it stands. -/
theorem makeDirectories_of_fits (hrooted : isRooted t.workingDirectory = true) (hfits : Fits u t)
    (h : ∀ p ∈ leads path, t.stat p = .ok .directory) : (u.makeDirectories path).1 = .ok () := by
  have hlast : ∀ {v : FileTree} {p : String}, Fits v t → t.stat p = .ok .directory → (∃ a, v.resolve p = .ok a) →
      (v.makeEach [p]).1 = .ok () := by
    intro v p hv hp hresolve
    obtain ⟨v', hv'⟩ := exists_makeDirectory hv hp hresolve
    rw [makeEach, hv']
    rfl
  rw [makeDirectories]
  induction path using path_induction with
  | part p hp =>
    rw [leads_part hp] at h ⊢
    by_cases hempty : p = ""
    · simp [hempty, makeEach]
    · rw [filter_cons_of_pos (by simpa using hempty), filter_nil] at h ⊢
      have hstat := h p mem_cons_self
      exact hlast hfits hstat (resolve_part hrooted hfits.workingDirectory hp ⟨_, (stat_eq_ok_iff.1 hstat).1⟩)
  | append path p hp ih =>
    rw [leads_append path hp] at h ⊢
    obtain ⟨hpath, hstat⟩ := forall_mem_append.1 h
    replace hstat := hstat _ mem_cons_self
    have hok := ih hpath
    have hfits' := hfits.makeEach hpath
    have hthere := fun hne => stat_of_makeEach hok (mem_leads_self hne)
    rw [makeEach_append]
    generalize u.makeEach (leads path) = result at hok hfits' hthere
    obtain ⟨outcome, u'⟩ := result
    cases hok
    exact hlast hfits' hstat
      (resolve_append hrooted hfits'.workingDirectory hp ⟨_, (stat_eq_ok_iff.1 hstat).1⟩ hthere)

/-- What can be followed in one tree can be followed in another one in which the parent stands. -/
theorem resolve_join (hrooted : isRooted t.workingDirectory = true)
    (hsame : u.workingDirectory = t.workingDirectory) {below : String} (hbelow : IsDescent below)
    (h : ∃ a, t.resolve (join path below) = .ok a)
    (hparent : ∀ p ∈ leads (parent (join path below)), u.stat p = .ok .directory) :
    ∃ a, u.resolve (join path below) = .ok a := by
  have hparts := parts_join path hbelow
  have hclean := (isClean_cleanParts (isRooted path) (parts path)).append hbelow
  have hne : cleanParts (isRooted path) (parts path) ++ parts below ≠ [] := by simp [parts_ne_nil]
  generalize cleanParts (isRooted path) (parts path) ++ parts below = ps at hparts hclean hne
  generalize join path below = file at h hparent hparts
  induction file using path_induction with
  | part p hp => exact resolve_part hrooted hsame hp h
  | append folder p hp _ =>
    obtain ⟨qs, q, rfl⟩ := (eq_nil_or_concat ps).resolve_left hne
    rw [parts_append, parts_of_notMem hp, concat_eq_append, ← append_assoc] at hparts
    obtain ⟨hfolder, -⟩ := append_inj' hparts rfl
    have hqs := (foldl_follow_of_leading hclean (by simp : qs <+: qs.concat q) []).1
    refine resolve_append hrooted hsame hp h fun hempty => hparent folder ?_
    rw [parent_append hfolder hqs hempty hp]
    exact mem_leads_self hempty

end FileTree

end ServiceCompiler
