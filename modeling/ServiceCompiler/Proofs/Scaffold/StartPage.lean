import Mathlib.Data.List.Infix
import ServiceCompiler.Proofs.Files.Change
import ServiceCompiler.Scaffold.Run

namespace ServiceCompiler

open List

/-!
# The start page is rewired once and for all

Neither the imports nor the routes that are put into the start page make another import of the logo or another header
out of what stands around them, so that nothing is left to be replaced.

* `Text.seals` — no occurrence of a mark reaches into a text or begins in it, whatever stands around the text.
* `Text.cut?_seals` — hence a cut at the mark passes over the text.
* `Scaffold.Replaced` — a text with some of its parts replaced, and all else kept in order.
* `Scaffold.rewireApp_complete` — the start page afterwards, and that rewiring it again changes nothing.
-/

namespace Text

variable {mark new cs before after : List Char}

theorem cut?_eq_none_iff : cut? mark cs = none ↔ ¬ mark <:+: cs := by
  rw [← contains_iff, contains]
  simp

/-- A cut is made at the first occurrence: what follows any occurrence of the mark follows the cut. -/
theorem exists_cut? (mark as bs : List Char) :
    ∃ before after, cut? mark (as ++ (mark ++ bs)) = some (before, after) ∧ bs <:+ after := by
  induction as with
  | nil =>
    refine ⟨[], bs, ?_, suffix_refl bs⟩
    cases mark with
    | nil => cases bs <;> rfl
    | cons c mark => rw [nil_append, cons_append, cut?, ← cons_append, stripLead?_append]
  | cons c as ih =>
    rw [cons_append, cut?]
    split
    · rename_i rest hstrip
      have htext := stripLead?_eq_some_iff.1 hstrip
      have hlength := congrArg length htext
      simp only [length_cons, length_append] at hlength
      exact ⟨[], rest, rfl, suffix_of_suffix_length_le ⟨c :: as ++ mark, by simp⟩ ⟨mark, htext.symm⟩ (by omega)⟩
    · obtain ⟨before, after, hcut, hsuffix⟩ := ih
      exact ⟨c :: before, after, by rw [hcut]; rfl, hsuffix⟩

theorem not_infix_of_cut? (hne : mark ≠ []) (h : cut? mark cs = some (before, after)) : ¬ mark <:+: before := by
  rintro ⟨as, bs, rfl⟩
  have htext : cs = as ++ (mark ++ (bs ++ (mark ++ after))) := by simp [eq_append_of_cut? h]
  obtain ⟨b, a, hcut, hsuffix⟩ := exists_cut? mark as (bs ++ (mark ++ after))
  obtain ⟨-, rfl⟩ : b = _ ∧ a = after := by simpa [← htext, h, eq_comm] using hcut
  have hlength := hsuffix.length_le
  have hpos := length_pos_iff.2 hne
  simp only [length_append] at hlength
  omega

/-- The two texts differ before the shorter one ends. -/
def differ (as bs : List Char) : Bool := !as.isPrefixOf bs && !bs.isPrefixOf as

/-- No occurrence of the mark begins in the text or reaches into it, whatever stands around the text. -/
def seals (mark new : List Char) : Bool :=
  (new.tails.all fun tail => tail.isEmpty || differ mark tail) &&
    mark.tail.tails.all fun tail => tail.isEmpty || differ tail new

theorem not_prefix_of_differ {as bs : List Char} (h : differ as bs = true) (rest : List Char) : ¬ as <+: bs ++ rest := by
  intro hprefix
  simp only [differ, Bool.and_eq_true, Bool.not_eq_true', Bool.eq_false_iff, ne_eq, List.isPrefixOf_iff_prefix] at h
  exact (List.prefix_or_prefix_of_prefix hprefix (prefix_append bs rest)).elim h.1 h.2

/-- A cut passes over a text in which no occurrence of the mark begins. -/
theorem cut?_append {front rest : List Char} (h : ∀ tail, tail <:+ front → tail ≠ [] → ¬ mark <+: tail ++ rest) :
    cut? mark (front ++ rest) = (cut? mark rest).map fun parts => (front ++ parts.1, parts.2) := by
  induction front with
  | nil => simp
  | cons c front ih =>
    have hlead := h (c :: front) (suffix_refl _) (by simp)
    rw [← hasLead_iff, hasLead, Option.not_isSome_iff_eq_none, cons_append] at hlead
    rw [cons_append, cut?, hlead, ih fun tail htail => h tail (htail.trans (suffix_cons c front)),
      Option.map_map]
    rfl

theorem cut?_seals (hseals : seals mark new = true) (hbefore : ¬ mark <:+: before) (rest : List Char) :
    cut? mark (before ++ new ++ rest) = (cut? mark rest).map fun parts => (before ++ new ++ parts.1, parts.2) := by
  simp only [seals, Bool.and_eq_true, List.all_eq_true, List.mem_tails, Bool.or_eq_true, List.isEmpty_iff] at hseals
  obtain ⟨hinside, hacross⟩ := hseals
  refine cut?_append fun tail htail hne hprefix => ?_
  have hnew : ¬ tail <:+ new := fun hnew => not_prefix_of_differ ((hinside tail hnew).resolve_left hne) rest hprefix
  -- An occurrence that begins before the text either ends there or goes on in it.
  obtain ⟨as, has⟩ := htail
  rcases append_eq_append_iff.1 has with ⟨x, rfl, rfl⟩ | ⟨x, rfl, rfl⟩
  · rw [append_assoc] at hprefix
    rcases List.prefix_or_prefix_of_prefix hprefix (prefix_append x (new ++ rest)) with hx | ⟨m, rfl⟩
    · exact hbefore (hx.isInfix.trans (List.suffix_append as x).isInfix)
    · rw [prefix_append_right_inj] at hprefix
      cases x with
      | nil => exact hnew (suffix_refl new)
      | cons c x =>
        rcases hacross m (List.suffix_append x m) with rfl | hm
        · exact hbefore ⟨as, [], by simp⟩
        · exact not_prefix_of_differ hm rest hprefix
  · exact hnew (List.suffix_append x tail)

theorem not_infix_of_seals (hseals : seals mark new = true) (hbefore : ¬ mark <:+: before)
    (hafter : ¬ mark <:+: after) : ¬ mark <:+: before ++ new ++ after := by
  rw [← cut?_eq_none_iff] at hafter ⊢
  rw [cut?_seals hseals hbefore, hafter]
  rfl

end Text

namespace Scaffold

open Text

variable {cs : List Char}

/-- A text with some parts of a kind replaced by a new text, and all else kept in its order. -/
inductive Replaced (old : List Char → Prop) (new : List Char) : List Char → List Char → Prop
  | kept (cs : List Char) : Replaced old new cs cs
  | replaced (before : List Char) {part cs ds : List Char} (hpart : old part) (hrest : Replaced old new cs ds) :
      Replaced old new (before ++ part ++ cs) (before ++ new ++ ds)

/-- A header, which ends with the first closing tag in it. -/
def IsHeader (part : List Char) : Prop :=
  ∃ inside, part = headerOpen.toList ++ inside ++ headerClose.toList ∧ ¬ headerClose.toList <:+: inside

/-- Somewhere in the text, a header is opened and closed. -/
def HasHeader (cs : List Char) : Prop :=
  ∃ before inside after, cs = before ++ (headerOpen.toList ++ (inside ++ (headerClose.toList ++ after)))

/-- The logo is imported at one place at most. -/
def ImportsLogoOnce (cs : List Char) : Prop :=
  ∀ as bs as' bs', cs = as ++ logoImport.toList ++ bs → cs = as' ++ logoImport.toList ++ bs' → as = as'

theorem seals_new : seals logoImport.toList routerImport.toList = true ∧
    seals logoImport.toList routerElement.toList = true ∧ seals headerOpen.toList routerElement.toList = true := by
  simp only [routerElement, headerOpen, routerImport, logoImport, String.toList_intercalate, map_cons, map_nil]
  repeat rw [String.toList_ofList]
  decide +kernel

/-- What is found is a header, and the first one. -/
theorem exists_isHeader {before after : List Char} (h : header? cs = some (before, after)) :
    ∃ part, IsHeader part ∧ cs = before ++ part ++ after ∧ ¬ headerOpen.toList <:+: before := by
  obtain ⟨⟨b, i⟩, hopen, h⟩ := Option.bind_eq_some_iff.1 h
  obtain ⟨⟨inside, a⟩, hclose, h⟩ := Option.bind_eq_some_iff.1 h
  obtain ⟨rfl, rfl⟩ : b = before ∧ a = after := by simpa using h
  refine ⟨_, ⟨inside, rfl, not_infix_of_cut? (by decide) hclose⟩, ?_, not_infix_of_cut? (by decide) hopen⟩
  rw [eq_append_of_cut? hopen, eq_append_of_cut? hclose]
  simp

theorem not_hasHeader (h : header? cs = none) : ¬ HasHeader cs := by
  rintro ⟨as, inside, bs, rfl⟩
  obtain ⟨before, after, hopen, rest, rfl⟩ := exists_cut? headerOpen.toList as (inside ++ (headerClose.toList ++ bs))
  obtain ⟨i, a, hclose, -⟩ := exists_cut? headerClose.toList (rest ++ inside) bs
  rw [append_assoc] at hclose
  simp [header?, hopen, hclose] at h

/-- **Every header** is replaced. -/
theorem replaceHeaders_complete (cs : List Char) :
    Replaced IsHeader routerElement.toList cs (replaceHeaders routerElement.toList cs) ∧
      header? (replaceHeaders routerElement.toList cs) = none ∧
      (¬ logoImport.toList <:+: cs → ¬ logoImport.toList <:+: replaceHeaders routerElement.toList cs) := by
  fun_induction replaceHeaders routerElement.toList cs with
  | case1 cs hnone => exact ⟨.kept cs, hnone, id⟩
  | case2 cs before after hsome ih =>
    obtain ⟨hreplaced, hheader, hlogo⟩ := ih
    obtain ⟨part, hpart, rfl, hopen⟩ := exists_isHeader hsome
    refine ⟨.replaced before hpart hreplaced, ?_, fun h => not_infix_of_seals seals_new.2.1 (mt ?_ h) (hlogo (mt ?_ h))⟩
    · simp only [header?] at hheader ⊢
      rw [cut?_seals seals_new.2.2 hopen]
      simpa [Option.bind_map] using hheader
    · exact fun hbefore => hbefore.trans ⟨[], part ++ after, by simp⟩
    · exact fun hafter => hafter.trans (List.suffix_append _ _).isInfix

/-- **The one import** of the logo is replaced. -/
theorem replaceLogo_complete (honce : ImportsLogoOnce cs) :
    Replaced (· = logoImport.toList) routerImport.toList cs
        (replaceFirst logoImport.toList routerImport.toList cs) ∧
      ¬ logoImport.toList <:+: replaceFirst logoImport.toList routerImport.toList cs := by
  rw [replaceFirst]
  split
  · rename_i hcut
    exact ⟨.kept cs, cut?_eq_none_iff.1 hcut⟩
  · rename_i before after hcut
    obtain rfl := eq_append_of_cut? hcut
    refine ⟨.replaced before rfl (.kept after), not_infix_of_seals seals_new.1 (not_infix_of_cut? (by decide) hcut) ?_⟩
    -- The import found first and one behind it would be two.
    rintro ⟨as, bs, rfl⟩
    have hsame := congrArg length (honce before _ (before ++ logoImport.toList ++ as) bs rfl (by simp))
    have hpos : 0 < logoImport.toList.length := by decide
    simp only [length_append] at hsame
    omega

theorem exists_rewireApp {t : FileTree} {path text : String} (h : t.read path = .ok text) :
    ∃ t', rewireApp path t = (.ok (), t') ∧ t'.read path = .ok (rewire text) := by
  rw [rewireApp, bind_apply, FileAction.read, FileAction.look, h]
  exact FileTree.exists_write_of_read h (rewire text)

/-- **The start page is rewired once and for all.**  If it imports the logo at one place at most, that import and all
    headers are replaced and all else is kept in order.  No import of the logo and no header is left or made, and
    rewiring the page again leaves it as it is. -/
theorem rewireApp_complete {t : FileTree} {path text : String} (hread : t.read path = .ok text)
    (honce : ImportsLogoOnce text.toList) :
    ∃ t' page, rewireApp path t = (.ok (), t') ∧ t'.read path = .ok page ∧
      ¬ logoImport.toList <:+: page.toList ∧ ¬ HasHeader page.toList ∧
      (∃ mid, Replaced (· = logoImport.toList) routerImport.toList text.toList mid ∧
        Replaced IsHeader routerElement.toList mid page.toList) ∧
      ∃ t'', rewireApp path t' = (.ok (), t'') ∧ t''.read path = .ok page := by
  obtain ⟨hlogo, hnoLogo⟩ := replaceLogo_complete honce
  obtain ⟨hheaders, hheader, hkept⟩ :=
    replaceHeaders_complete (replaceFirst logoImport.toList routerImport.toList text.toList)
  obtain ⟨t', hfirst, hread'⟩ := exists_rewireApp hread
  obtain ⟨t'', hsecond, hread''⟩ := exists_rewireApp hread'
  have hpage : (rewire text).toList = replaceHeaders routerElement.toList
      (replaceFirst logoImport.toList routerImport.toList text.toList) := String.toList_ofList
  rw [← hpage] at hheaders hheader hkept
  have hfixed : rewire (rewire text) = rewire text := by
    rw [rewire, replaceFirst, cut?_eq_none_iff.2 (hkept hnoLogo), replaceHeaders]
    split
    · exact String.ofList_toList
    · rename_i hsome
      simp [hheader] at hsome
  exact ⟨t', _, hfirst, hread', hkept hnoLogo, not_hasHeader hheader, ⟨_, hlogo, hheaders⟩, t'', hsecond,
    hfixed ▸ hread''⟩

/-- A page with one import of the logo, a header that begins in another one and one that is not closed. -/
def nestedPage : String := logoImport ++ headerOpen ++ headerOpen ++ headerClose ++ headerOpen

theorem rewireApp_complete_nested :
    let t : FileTree := { workingDirectory := "/", entries := [(["App.js"], .file nestedPage)] }
    t.read "App.js" = .ok nestedPage ∧ ImportsLogoOnce nestedPage.toList ∧ ∃ t' page,
      rewireApp "App.js" t = (.ok (), t') ∧ t'.read "App.js" = .ok page ∧ ¬ HasHeader page.toList := by
  intro t
  have hread : t.read "App.js" = .ok nestedPage := FileTree.read_eq_ok_iff.2 ⟨by decide +kernel, by decide +kernel⟩
  have hbegin : ∀ as bs, nestedPage.toList = as ++ logoImport.toList ++ bs → as = [] := by
    rintro (_ | ⟨c, as⟩) bs h
    · rfl
    · have hinfix : logoImport.toList <:+: nestedPage.toList.tail := ⟨as, bs, (congrArg List.tail h).symm⟩
      exact absurd (contains_iff.2 hinfix) (by decide +kernel)
  have honce : ImportsLogoOnce nestedPage.toList := fun as bs as' bs' h h' =>
    (hbegin as bs h).trans (hbegin as' bs' h').symm
  obtain ⟨t', page, hrun, hpage, -, hheader, -⟩ := rewireApp_complete hread honce
  exact ⟨hread, honce, t', page, hrun, hpage, hheader⟩

end Scaffold

end ServiceCompiler
