import ServiceCompiler.Code.Writer
import ServiceCompiler.Proofs.Files.Directory

namespace ServiceCompiler

open Files FileTree List

/-!
# Writing artifacts is exact

Writing artifacts puts each of them at its place, makes the directories on the way, and changes nothing else.

* `IsOfWriting` — the failures of writing; `isOfWriting_of_write` — it has no others.
* `Wrote` — what stands in a tree after artifacts were written; `Wrote.get?_eq` — this does not depend on their order.
* `writeEach_of_fits` — what can be written in one order can be written in every order.
* `write_isExact` — what writing leaves when it succeeds and when it fails.
-/

/-- What stands in a tree after artifacts were written below a directory, with the directories at some paths: these
    are there, and nothing else has changed. -/
structure Wrote (directory : String) (as : List Artifact) (paths : List String) (t t' : FileTree) : Prop where
  read : ∀ a ∈ as, t'.read (join directory a.path) = .ok a.content
  stat : ∀ p ∈ paths, t'.stat p = .ok .directory
  adds : Adds (fun b => ∃ p ∈ paths, b = t.address p)
    (fun b => ∃ a ∈ as, b = t.address (join directory a.path)) t t'
  keeps : Keeps (fun _ entry => entry ≠ .directory) t t'

namespace Wrote

variable {directory : String} {as as' : List Artifact} {paths paths' : List String} {t t' t'' : FileTree}

theorem refl (directory : String) (t : FileTree) : Wrote directory [] [] t t :=
  ⟨by simp, by simp, .refl _ _ _, .refl _ _⟩

/-- Artifacts at other places are written behind. -/
theorem trans (h : Wrote directory as paths t t') (h' : Wrote directory as' paths' t' t'')
    (hne : ∀ a ∈ as, ∀ a' ∈ as', t.address (join directory a.path) ≠ t.address (join directory a'.path)) :
    Wrote directory (as ++ as') (paths ++ paths') t t'' where
  read := by
    refine forall_mem_append.2 ⟨fun a ha => ?_, h'.read⟩
    refine read_of_adds h'.adds h'.keeps (h.read a ha) ?_
    rintro ⟨a', ha', heq⟩
    simp only [address_congr h.keeps.workingDirectory] at heq
    exact hne a ha a' ha' heq
  stat := forall_mem_append.2 ⟨fun p hp => stat_of_keeps h'.keeps (h.stat p hp), h'.stat⟩
  adds := by
    have haddress := address_congr h.keeps.workingDirectory
    refine (h.adds.mono ?_ ?_).trans (h'.adds.mono ?_ ?_)
    · exact fun b ⟨p, hp, heq⟩ _ _ => ⟨p, mem_append_left _ hp, heq⟩
    · exact fun b ⟨a, ha, heq⟩ => ⟨a, mem_append_left _ ha, heq⟩
    · exact fun b ⟨p, hp, heq⟩ _ _ => ⟨p, mem_append_right _ hp, heq.trans (haddress p)⟩
    · exact fun b ⟨a, ha, heq⟩ => ⟨a, mem_append_right _ ha, heq.trans (haddress _)⟩
  keeps := h.keeps.trans h'.keeps

/-- **The order does not matter** for what stands in the tree. -/
theorem get?_eq (h : Wrote directory as paths t t') (h' : Wrote directory as' paths' t t'')
    (has : ∀ a, a ∈ as' ↔ a ∈ as) (hpaths : ∀ p, p ∈ paths' ↔ p ∈ paths) (b : FileAddress) :
    t''.get? b = t'.get? b := by
  have haddress := address_congr h.keeps.workingDirectory
  have haddress' := address_congr h'.keeps.workingDirectory
  by_cases hfree : ∃ a ∈ as, b = t.address (join directory a.path)
  · obtain ⟨a, ha, rfl⟩ := hfree
    have hread := (read_eq_ok_iff.1 (h.read a ha)).2
    have hread' := (read_eq_ok_iff.1 (h'.read a ((has a).2 ha))).2
    rw [haddress] at hread
    rw [haddress'] at hread'
    rw [hread, hread']
  · by_cases hmade : ∃ p ∈ paths, b = t.address p
    · obtain ⟨p, hp, rfl⟩ := hmade
      have hstat := (stat_eq_ok_iff.1 (h.stat p hp)).2
      have hstat' := (stat_eq_ok_iff.1 (h'.stat p ((hpaths p).2 hp))).2
      rw [haddress] at hstat
      rw [haddress'] at hstat'
      rw [hstat, hstat']
    · have hrest := (h.adds.get? b hfree).resolve_right fun hnew => hmade hnew.1
      simp only [← has] at hfree
      simp only [← hpaths] at hmade
      rw [hrest, (h'.adds.get? b hfree).resolve_right fun hnew => hmade hnew.1]

/-- Nothing stood in the way of what was written. -/
theorem fits (h : Wrote directory as paths t t') : Fits t t' where
  workingDirectory := h.keeps.workingDirectory.symm
  get? b entry hentry := by
    cases entry with
    | directory => exact iff_of_true rfl (h.keeps.get? b _ (fun hlost => hlost rfl) hentry)
    | file content =>
      refine iff_of_false (fun heq => nomatch heq) fun hdirectory => ?_
      by_cases hfree : ∃ a ∈ as, b = t.address (join directory a.path)
      · obtain ⟨a, ha, rfl⟩ := hfree
        have hread := (read_eq_ok_iff.1 (h.read a ha)).2
        rw [address_congr h.keeps.workingDirectory, hdirectory] at hread
        cases hread
      · rw [h.adds.keeps.get? b _ hfree hentry] at hdirectory
        cases hdirectory

end Wrote

namespace Writer

variable {w w' : Writer} {t t' : FileTree} {a : Artifact} {f : Failure}

/-! ### One artifact -/

def ways (directory : String) (as : List Artifact) : List String :=
  as.flatMap fun a => leads (parent (join directory a.path))

theorem ways_cons (directory : String) (a : Artifact) (as : List Artifact) :
    ways directory (a :: as) = leads (parent (join directory a.path)) ++ ways directory as :=
  rfl

/-- The writer after one more artifact. -/
def counted (w : Writer) (a : Artifact) : Writer :=
  { w with files := w.files + 1, octets := w.octets + Text.octetCount a.content }

theorem writeArtifact_eq (w : Writer) (a : Artifact) (t : FileTree) :
    w.writeArtifact a t = match t.makeDirectories (parent (join w.directory a.path)) with
      | (.error e, s) => (.error (.generation a.path "write" "create directory" (some (.file e))), s)
      | (.ok (), s) =>
        match s.write (join w.directory a.path) a.content with
        | .error e => (.error (.generation a.path "write" "" (some (.file e))), s)
        | .ok t' => (.ok (w.counted a), t') := by
  rw [writeArtifact, bind_apply]
  rcases hmake : t.makeDirectories (parent (join w.directory a.path)) with ⟨e | _, s⟩
  · simp [FileAction.labeled, FileAction.makeDirectories, hmake, mapError_error]
  · simp only [FileAction.labeled, FileAction.makeDirectories, hmake, mapError_ok, bind_apply]
    cases hwrite : s.write (join w.directory a.path) a.content <;>
      simp [FileAction.write, FileAction.change, hwrite, mapError_error, mapError_ok, pure_apply, counted]

theorem writeArtifact_eq_ok_iff :
    w.writeArtifact a t = (.ok w', t') ↔ (t.makeDirectories (parent (join w.directory a.path))).1 = .ok () ∧
      (t.makeDirectories (parent (join w.directory a.path))).2.write (join w.directory a.path) a.content = .ok t' ∧
      w' = w.counted a := by
  rw [writeArtifact_eq]
  rcases t.makeDirectories (parent (join w.directory a.path)) with ⟨e | _, s⟩
  · exact ⟨nofun, fun h => nomatch h.1⟩
  · cases hwrite : s.write (join w.directory a.path) a.content <;> simp only [hwrite]
    · exact ⟨nofun, fun h => nomatch h.2.1⟩
    · constructor
      · intro h
        cases h
        exact ⟨trivial, rfl, rfl⟩
      · rintro ⟨-, h, rfl⟩
        cases h
        rfl

/-- An artifact that cannot be written is named, and only directories on the way to it were made. -/
theorem of_writeArtifact_error (h : w.writeArtifact a t = (.error f, t')) :
    (∃ message cause, f = .generation a.path "write" message cause) ∧
      t' = (t.makeDirectories (parent (join w.directory a.path))).2 := by
  rw [writeArtifact_eq] at h
  rcases hmake : t.makeDirectories (parent (join w.directory a.path)) with ⟨e | _, s⟩
  · simp only [hmake] at h
    cases h
    exact ⟨⟨_, _, rfl⟩, rfl⟩
  · simp only [hmake] at h
    cases hwrite : s.write (join w.directory a.path) a.content <;> simp only [hwrite] at h <;> cases h
    exact ⟨⟨_, _, rfl⟩, rfl⟩

/-! ### Steps -/

theorem wrote_makeDirectories (directory : String) {path : String} (h : (t.makeDirectories path).1 = .ok ()) :
    Wrote directory [] (leads path) t (t.makeDirectories path).2 where
  read := by simp
  stat _ hp := stat_of_makeEach h hp
  adds := (adds_makeEach t (leads path)).mono (fun _ hmade _ _ => hmade) fun _ => False.elim
  keeps := (adds_makeEach t (leads path)).keeps.mono fun _ _ => False.elim

theorem wrote_artifact (h : w.writeArtifact a t = (.ok w', t')) :
    Wrote w.directory [a] (leads (parent (join w.directory a.path))) t t' := by
  obtain ⟨hmake, hwrite, -⟩ := writeArtifact_eq_ok_iff.1 h
  have hfile : Wrote w.directory [a] [] (t.makeDirectories (parent (join w.directory a.path))).2 t' := {
    read := forall_mem_singleton.2 (read_of_write hwrite)
    stat := by simp
    adds := (adds_write hwrite _).mono (fun _ hmade _ _ => hmade) fun _ hb => ⟨a, mem_cons_self, hb⟩
    keeps := (keeps_write hwrite).mono fun _ _ hlost => hlost.2 }
  simpa using (wrote_makeDirectories w.directory hmake).trans hfile (by simp)

theorem wrote_prepare (h : w.prepare t = (.ok (), t')) : Wrote w.directory [] (w.layout.flatMap leads) t t' := by
  rw [prepare] at h
  generalize w.layout = paths at h
  induction paths generalizing t with
  | nil =>
    cases h
    exact .refl _ _
  | cons path rest ih =>
    replace h : ((FileAction.makeDirectories path).labeled _ >>= fun _ => _) t = _ := h
    rw [bind_apply, FileAction.labeled, FileAction.makeDirectories] at h
    have hmake := @wrote_makeDirectories t w.directory path
    rcases hresult : t.makeDirectories path with ⟨e | _, s⟩ <;> rw [hresult] at h hmake
    · cases h
    · exact (hmake rfl).trans (ih h) (by simp)

section Equations

-- One artifact stays closed: the equations of the list hold whatever becomes of it.
attribute [local irreducible] writeArtifact

theorem writeEach_nil (w : Writer) (t : FileTree) : w.writeEach [] t = ((w, none), t) := rfl

theorem writeEach_cons (w : Writer) (a : Artifact) (rest : List Artifact) (t : FileTree) :
    w.writeEach (a :: rest) t = match w.writeArtifact a t with
      | (.error f, t') => ((w, some f), t')
      | (.ok w', t') => w'.writeEach rest t' :=
  rfl

end Equations

/-! ### Runs -/

/-- How many octets artifacts have. -/
def octetsOf (as : List Artifact) : Nat := as.foldr (fun a n => Text.octetCount a.content + n) 0

/-- The writer after artifacts. -/
def countedAll (w : Writer) (as : List Artifact) : Writer :=
  { w with files := w.files + as.length, octets := w.octets + octetsOf as }

@[simp] theorem directory_countedAll (w : Writer) (as : List Artifact) : (w.countedAll as).directory = w.directory := rfl

theorem countedAll_cons (w : Writer) (a : Artifact) (as : List Artifact) :
    (w.counted a).countedAll as = w.countedAll (a :: as) := by
  simp [countedAll, counted, octetsOf, Nat.add_assoc, Nat.add_comm 1]

section Rooted

variable {as : List Artifact} (hrooted : isRooted t.workingDirectory = true) (hbelow : ∀ a ∈ as, IsDescent a.path)
  (hnodup : (as.map Artifact.path).Nodup)
include hrooted hbelow hnodup

/-- **One after the other**, all artifacts are written. -/
theorem wrote_each (h : w.writeEach as t = ((w', none), t')) :
    Wrote w.directory as (ways w.directory as) t t' ∧ w' = w.countedAll as := by
  induction as generalizing w t with
  | nil =>
    rw [writeEach_nil] at h
    cases h
    exact ⟨.refl _ _, rfl⟩
  | cons a rest ih =>
    obtain ⟨ha, hrest⟩ := forall_mem_cons.1 hbelow
    obtain ⟨hfresh, hnodup⟩ := nodup_cons.1 hnodup
    rw [writeEach_cons] at h
    rcases hwrite : w.writeArtifact a t with ⟨f | w₁, t₁⟩
    · simp [hwrite] at h
    · simp only [hwrite] at h
      have hone := wrote_artifact hwrite
      obtain ⟨-, -, rfl⟩ := writeArtifact_eq_ok_iff.1 hwrite
      obtain ⟨hlater, hcount⟩ := ih (hone.keeps.workingDirectory ▸ hrooted) hrest hnodup h
      refine ⟨ways_cons w.directory a rest ▸ hone.trans hlater fun b hb a' ha' heq => ?_,
        hcount.trans (countedAll_cons w a rest)⟩
      obtain rfl := mem_singleton.1 hb
      rw [address_join hrooted _ ha, address_join hrooted _ (hrest a' ha')] at heq
      exact hfresh (mem_map.2 ⟨a', ha', (parts_injective (append_cancel_left heq)).symm⟩)

theorem wrote (stopped : Bool) (h : w.write stopped as t = ((w', none), t')) :
    Wrote w.directory as (w.layout.flatMap leads ++ ways w.directory as) t t' ∧ w' = w.countedAll as := by
  rw [write] at h
  rcases hprepare : w.prepare t with ⟨f | _, s⟩
  · simp [hprepare] at h
  · simp only [hprepare] at h
    have hlayout := wrote_prepare hprepare
    split at h
    · simp at h
    · obtain ⟨hwrote, hcount⟩ := wrote_each (hlayout.keeps.workingDirectory ▸ hrooted) hbelow hnodup h
      exact ⟨hlayout.trans hwrote (by simp), hcount⟩

end Rooted

/-- **In a tree that fits** one in which artifacts stand, they can be written. -/
theorem writeEach_of_fits (hrooted : isRooted t.workingDirectory = true) {as : List Artifact}
    (hbelow : ∀ a ∈ as, IsDescent a.path) (hread : ∀ a ∈ as, ∃ content, t.read (join w.directory a.path) = .ok content)
    (hways : ∀ p ∈ ways w.directory as, t.stat p = .ok .directory) {u : FileTree} (hfits : u.Fits t) :
    ∃ w' u', w.writeEach as u = ((w', none), u') := by
  induction as generalizing w u with
  | nil => exact ⟨w, u, rfl⟩
  | cons a rest ih =>
    obtain ⟨ha, hrest⟩ := forall_mem_cons.1 hbelow
    obtain ⟨⟨content, hcontent⟩, hread⟩ := forall_mem_cons.1 hread
    rw [ways_cons] at hways
    obtain ⟨hparent, hways⟩ := forall_mem_append.1 hways
    have hmake := makeDirectories_of_fits hrooted hfits hparent
    have hmade : Fits (u.makeDirectories (parent (join w.directory a.path))).2 t := hfits.makeEach hparent
    have hthere : ∀ p ∈ leads (parent (join w.directory a.path)),
        (u.makeDirectories (parent (join w.directory a.path))).2.stat p = .ok .directory := fun _ hp =>
      stat_of_makeEach hmake hp
    have hresolve := resolve_join hrooted hmade.workingDirectory ha
      ⟨_, (read_eq_ok_iff.1 hcontent).1⟩ hthere
    obtain ⟨u₁, hwrite, hfits₁⟩ := hmade.exists_write hcontent hresolve a.content
    obtain ⟨w', u', hlater⟩ := @ih (w.counted a) hrest hread hways u₁ hfits₁
    refine ⟨w', u', ?_⟩
    rw [writeEach_cons, writeArtifact_eq_ok_iff.2 ⟨hmake, hwrite, rfl⟩]
    exact hlater

/-- Artifacts are written up to the first that fails. -/
theorem exists_of_writeEach {as : List Artifact} (h : w.writeEach as t = ((w', some f), t')) :
    ∃ before a after s, as = before ++ a :: after ∧ w.writeEach before t = ((w', none), s) ∧
      w'.writeArtifact a s = (.error f, t') := by
  induction as generalizing w t with
  | nil => simp [writeEach_nil] at h
  | cons a rest ih =>
    rw [writeEach_cons] at h
    rcases hwrite : w.writeArtifact a t with ⟨cause | w₁, t₁⟩
    · simp only [hwrite] at h
      cases h
      exact ⟨[], a, rest, t, rfl, rfl, hwrite⟩
    · simp only [hwrite] at h
      obtain ⟨before, b, after, s, rfl, hbefore, hb⟩ := ih h
      exact ⟨a :: before, b, after, s, rfl, by rw [writeEach_cons, hwrite]; exact hbefore, hb⟩

/-- The directories on the way to the layout and to artifacts. -/
def allWays (w : Writer) (as : List Artifact) : List String := w.layout.flatMap leads ++ ways w.directory as

/-- Writing fails for the layout, or at the first artifact that fails. -/
theorem of_write_error {as : List Artifact} (hrooted : isRooted t.workingDirectory = true)
    (hbelow : ∀ a ∈ as, IsDescent a.path) (hnodup : (as.map Artifact.path).Nodup)
    (h : w.write false as t = ((w', some f), t')) :
    w.prepare t = (.error f, t') ∧ w' = w ∨ ∃ before a after, as = before ++ a :: after ∧
      (∃ message cause, f = .generation a.path "write" message cause) ∧ w' = w.countedAll before ∧
      (∀ b ∈ before, t'.read (join w.directory b.path) = .ok b.content) ∧
      Adds (fun b => ∃ p ∈ w.allWays (before ++ [a]), b = t.address p)
        (fun b => ∃ c ∈ before, b = t.address (join w.directory c.path)) t t' := by
  rw [write] at h
  rcases hprepare : w.prepare t with ⟨f' | _, s⟩
  · simp only [hprepare] at h
    cases h
    exact .inl ⟨rfl, rfl⟩
  · simp only [hprepare, Bool.false_and, Bool.false_eq_true, if_false] at h
    obtain ⟨before, a, after, s₁, rfl, hbefore, hlast⟩ := exists_of_writeEach h
    have hwrote := @wrote w w' t s₁ before hrooted (fun b hb => hbelow b (mem_append_left _ hb))
      (hnodup.sublist ((sublist_append_left before (a :: after)).map _)) false (by rw [write, hprepare]; exact hbefore)
    obtain ⟨hwrote, rfl⟩ := hwrote
    obtain ⟨hnamed, hrest⟩ := of_writeArtifact_error hlast
    rw [directory_countedAll] at hrest
    have hmade := adds_makeEach s₁ (leads (parent (join w.directory a.path)))
    rw [← makeDirectories, ← hrest] at hmade
    refine .inr ⟨before, a, after, rfl, hnamed, rfl, fun b hb => ?_, ?_⟩
    · exact read_of_adds hmade (hmade.keeps.mono fun _ _ => False.elim) (hwrote.read b hb) id
    · have hways : w.allWays (before ++ [a]) = w.layout.flatMap leads ++ ways w.directory before ++
          leads (parent (join w.directory a.path)) := by simp [allWays, ways]
      rw [hways]
      refine (hwrote.adds.mono ?_ fun _ => id).trans (hmade.mono ?_ fun _ => False.elim)
      · rintro b ⟨p, hp, hb⟩ - -
        exact ⟨p, mem_append_left _ hp, hb⟩
      · rintro b ⟨p, hp, hb⟩ - -
        exact ⟨p, mem_append_right _ hp, hb.trans (address_congr hwrote.keeps.workingDirectory p)⟩

/-- What was written in one order can be written in every order, with the same tree in the end. -/
theorem exists_write_of_perm {stopped : Bool} {as as' : List Artifact} (hrooted : isRooted t.workingDirectory = true)
    (hbelow : ∀ a ∈ as, IsDescent a.path) (hnodup : (as.map Artifact.path).Nodup)
    (h : w.write stopped as t = ((w', none), t')) (hperm : as'.Perm as) :
    ∃ w'' t'', w.write stopped as' t = ((w'', none), t'') ∧ ∀ b, t''.get? b = t'.get? b := by
  have hbelow' : ∀ a ∈ as', IsDescent a.path := fun a ha => hbelow a (hperm.subset ha)
  have hwrote := (wrote hrooted hbelow hnodup stopped h).1
  have hnodup' := (hperm.map Artifact.path).nodup_iff.2 hnodup
  have hways : ∀ p, p ∈ ways w.directory as' ↔ p ∈ ways w.directory as := fun p => (hperm.flatMap_right _).mem_iff
  have hsuccess : ∃ w'' t'', w.write stopped as' t = ((w'', none), t'') := by
    have hempty : as'.isEmpty = as.isEmpty := by
      rw [Bool.eq_iff_iff, isEmpty_iff_length_eq_zero, isEmpty_iff_length_eq_zero, hperm.length_eq]
    rw [write] at h ⊢
    rcases hprepare : w.prepare t with ⟨f | _, s⟩
    · simp [hprepare] at h
    · simp only [hprepare, hempty] at h ⊢
      split at h
      · simp at h
      · rename_i hstopped
        rw [if_neg hstopped]
        have hprepared := wrote_prepare hprepare
        have heach := (wrote_each (hprepared.keeps.workingDirectory ▸ hrooted) hbelow hnodup h).1
        refine writeEach_of_fits (hwrote.keeps.workingDirectory ▸ hrooted) hbelow' (fun a ha => ?_) (fun p hp => ?_) heach.fits
        · exact ⟨a.content, heach.read a (hperm.subset ha)⟩
        · exact heach.stat p ((hways p).1 hp)
  obtain ⟨w'', t'', h'⟩ := hsuccess
  refine ⟨w'', t'', h', hwrote.get?_eq (wrote hrooted hbelow' hnodup' stopped h').1 (fun _ => hperm.mem_iff) fun p => ?_⟩
  rw [mem_append, mem_append, hways]

theorem join_ne_empty (path : String) {below : String} (h : IsDescent below) : join path below ≠ "" := by
  intro hempty
  have hparts := parts_join path h
  obtain ⟨name, hname⟩ := exists_mem_of_ne_nil _ (parts_ne_nil below)
  rw [hempty] at hparts
  have hmem : name ∈ parts "" := hparts ▸ by simp [hname]
  exact (h name hname).1 (mem_singleton.1 hmem)

/-- **Writing artifacts is exact.**  If it succeeds, each artifact stands at its path and the directories of the layout
    are there; but for those on the way, nothing else has changed; and all this is so in every order.  If it fails at
    an artifact, that one is named, those before it are written, and nothing stands at the places of the others but
    what stood there or a directory on the way. -/
theorem write_isExact {w : Writer} {t : FileTree} {as : List Artifact} (hrooted : isRooted t.workingDirectory = true)
    (hbelow : ∀ a ∈ as, IsDescent a.path) (hnodup : (as.map Artifact.path).Nodup) :
    (∀ stopped w' t', w.write stopped as t = ((w', none), t') →
      Wrote w.directory as (w.allWays as) t t' ∧
      (∀ name ∈ ["routes", "public"] ++ (if w.noViews then [] else ["views"]),
        t'.stat (join w.directory name) = .ok .directory) ∧
      w' = w.countedAll as ∧
      ∀ as' : List Artifact, as'.Perm as → ∃ w'' t'', w.write stopped as' t = ((w'', none), t'') ∧
        ∀ b, t''.get? b = t'.get? b) ∧
    ∀ w' f t', w.write false as t = ((w', some f), t') →
      w.prepare t = (.error f, t') ∧ w' = w ∨ ∃ before a after, as = before ++ a :: after ∧
        (∃ message cause, f = .generation a.path "write" message cause) ∧ w' = w.countedAll before ∧
        (∀ b ∈ before, t'.read (join w.directory b.path) = .ok b.content) ∧
        FileTree.Adds (fun b => ∃ p ∈ w.allWays (before ++ [a]), b = t.address p)
          (fun b => ∃ c ∈ before, b = t.address (join w.directory c.path)) t t' := by
  refine ⟨fun stopped w' t' h => ?_, fun w' f t' h => of_write_error hrooted hbelow hnodup h⟩
  obtain ⟨hwrote, hcount⟩ := wrote hrooted hbelow hnodup stopped h
  refine ⟨hwrote, fun name hname => hwrote.stat _ ?_, hcount, fun as' => exists_write_of_perm hrooted hbelow hnodup h⟩
  have hdescent : IsDescent name := by
    revert name
    cases w.noViews <;> decide
  refine List.mem_append_left _ (List.mem_flatMap.2 ⟨join w.directory name, ?_, mem_leads_self (join_ne_empty _ hdescent)⟩)
  exact List.mem_cons_of_mem _ (List.mem_map_of_mem hname)

/-- Two artifacts of which the second replaces a file. -/
def twoArtifacts : List Artifact := [⟨"a/b.txt", "1"⟩, ⟨"c.txt", "22"⟩]

def replacedFile : FileTree :=
  { workingDirectory := "/w"
    entries := [(["w", "out"], .directory), (["w", "out", "c.txt"], .file "old"), (["w", "d"], .file "kept")] }

theorem write_isExact_twoArtifacts : isRooted replacedFile.workingDirectory = true ∧
    (∀ a ∈ twoArtifacts, IsDescent a.path) ∧ (twoArtifacts.map Artifact.path).Nodup ∧
    ∃ w' t', write { directory := "out" } false twoArtifacts replacedFile = ((w', none), t') ∧
      Wrote "out" twoArtifacts (allWays { directory := "out" } twoArtifacts) replacedFile t' ∧ w'.octets = 3 := by
  have hbelow : ∀ a ∈ twoArtifacts, IsDescent a.path := by decide
  have hsuccess : (write { directory := "out" } false twoArtifacts replacedFile).1.2.isNone = true := by decide +kernel
  refine ⟨by decide, hbelow, by decide, ?_⟩
  rcases hwrite : write { directory := "out" } false twoArtifacts replacedFile with ⟨⟨w', _ | f⟩, t'⟩
  · obtain ⟨hwrote, -, rfl, -⟩ := (write_isExact (by decide) hbelow (by decide)).1 false w' t' hwrite
    exact ⟨_, _, rfl, hwrote, by decide⟩
  · rw [hwrite] at hsuccess
    cases hsuccess

end Writer

end ServiceCompiler
