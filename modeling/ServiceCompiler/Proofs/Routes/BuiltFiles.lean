import Mathlib.Data.List.Infix
import Mathlib.Data.List.Pairwise
import ServiceCompiler.Proofs.Code.ArtifactSet
import ServiceCompiler.Proofs.Naming.Valid
import ServiceCompiler.Proofs.Routes.RoutesPackage

namespace ServiceCompiler

open Code Text List Naming Option
open Naming (Names)

/-!
# Which group files are built

The build tool passes over files by their names alone: those that begin with an underscore or a dot, those
of tests, and those whose name ends in a system or processor that is not the one built for.  A group file
that is passed over takes the function with it that mounts the group.

* `BuiltEverywhere` — the rule of the build tool, for all systems and processors at once.
* `fileStem` — the name of a group's file is this stem, perhaps a number, and the file ending.
* `IsGroupStem` — behind its last underscore such a stem has `group` and digits, so that no file of a group
  is taken for a test or for a file of one system (`IsGroupStem.not_endsInWord`).
* `builtEverywhere_file_iff` — what is left is the first character: a segment that does not begin with a
  letter or digit gives a file that is never built.
* `built_iff_segments_ledPlainly` — hence the mounting function finds all the functions it calls exactly
  when no path begins with such a segment.
-/

/-! ### The rule of the build tool -/

/-- Systems that the build tool knows by name. -/
def knownSystems : List String :=
  ["aix", "android", "darwin", "dragonfly", "freebsd", "hurd", "illumos", "ios", "js", "linux", "nacl",
   "netbsd", "openbsd", "plan9", "solaris", "wasip1", "windows", "zos"]

/-- Processors that the build tool knows by name. -/
def knownProcessors : List String :=
  ["386", "amd64", "amd64p32", "arm", "armbe", "arm64", "arm64be", "loong64", "mips", "mipsle", "mips64",
   "mips64le", "mips64p32", "mips64p32le", "ppc", "ppc64", "ppc64le", "riscv", "riscv64", "s390", "s390x",
   "sparc", "sparc64", "wasm"]

/-- A file name ends in a word of its own: an underscore, the word and the file ending. -/
def EndsInWord (name word : String) : Prop := ("_" ++ word ++ ".go").toList <:+ name.toList

instance (name word : String) : Decidable (EndsInWord name word) :=
  inferInstanceAs (Decidable (_ <:+ _))

/-- The build tool compiles a file of this name into its package, whatever it builds for. -/
structure BuiltEverywhere (name : String) : Prop where
  notUnderscore : name.toList.head? ≠ some '_'
  notDot : name.toList.head? ≠ some '.'
  notTest : ¬ EndsInWord name "test"
  notSystem : ∀ word ∈ knownSystems, ¬ EndsInWord name word
  notProcessor : ∀ word ∈ knownProcessors, ¬ EndsInWord name word

/-! ### The stem of a file -/

namespace Naming

/-- A segment with underscores for all that is no letter or digit. -/
def plainSegment (segment : String) : List Char :=
  segment.toList.map fun c => if isAlphanumeric c then c else '_'

/-- A name that belongs to another file, or that an underscore cuts into words. -/
def isAmbiguous (name : List Char) : Bool :=
  ["auth", "index", "root"].contains (String.ofList name) || name.contains '_'

/-- The name of a group's file without number and ending. -/
def fileStem (segment : String) : List Char :=
  if segment = "" then "root".toList
  else plainSegment segment ++ if isAmbiguous (plainSegment segment) then "_group".toList else []

theorem fileName_eq_fileStem (segment : String) : fileName segment = String.ofList (fileStem segment) ++ ".go" := by
  unfold fileName fileStem
  by_cases hempty : segment = ""
  · rw [if_pos hempty, if_pos hempty]
    rfl
  · rw [if_neg hempty, if_neg hempty]
    show String.ofList (plainSegment segment)
      ++ (if isAmbiguous (plainSegment segment) then "_group" else "") ++ ".go" = _
    by_cases hmark : isAmbiguous (plainSegment segment) <;> simp [hmark]

/-- With a number, a file keeps its stem and its ending. -/
theorem exists_candidate_fileName {names : Names} (hend : names.ending = ".go") (segment : String)
    (k : Nat) : ∃ digits : List Char, (∀ c ∈ digits, c.isDigit) ∧
      (names.candidate (fileName segment) k).toList = fileStem segment ++ digits ++ ".go".toList := by
  by_cases hk : 1 < k
  · have hstem : names.stem (fileName segment) = String.ofList (fileStem segment) := by
      rw [Names.stem, hend, fileName_eq_fileStem, String.toList_append, stripTail?_append]
      simp
    refine ⟨(decimal k).toList, fun c hc => isDigit_of_mem_decimal hc, ?_⟩
    rw [Names.candidate_of_one_lt names _ hk, hstem, hend]
    simp
  · refine ⟨[], by simp, ?_⟩
    rw [Names.candidate, if_pos (by omega), fileName_eq_fileStem]
    simp

end Naming

/-- The file of each group is made from its segment. -/
theorem exists_file_eq {groups : List RouteGroup} {g : NamedGroup} (hg : g ∈ nameGroups groups) :
    ∃ digits : List Char, (∀ c ∈ digits, c.isDigit) ∧
      g.file.toList = fileStem g.segment ++ digits ++ ".go".toList := by
  obtain ⟨names, k, hend, hfile⟩ := file_eq_candidate g hg
  rw [hfile]
  exact exists_candidate_fileName hend g.segment k

/-! ### Behind the last underscore -/

/-- What stands in front of number and ending: letters and digits alone, or anything that is set off by
    `_group` at its end.  Digits behind it count as part of it. -/
inductive IsGroupStem : List Char → Prop
  | plain {stem : List Char} (h : ∀ c ∈ stem, isAlphanumeric c) : IsGroupStem stem
  | marked (front : List Char) {digits : List Char} (h : ∀ c ∈ digits, c.isDigit) :
    IsGroupStem (front ++ '_' :: ("group".toList ++ digits))

theorem Text.isAlphanumeric_of_isDigit {c : Char} (h : c.isDigit) : isAlphanumeric c := by
  rw [isAlphanumeric, isDigit_eq, h, Bool.or_true]

theorem Text.underscore_notMem {cs : List Char} (h : ∀ c ∈ cs, isAlphanumeric c) : '_' ∉ cs :=
  fun hmem => absurd (h '_' hmem) (by decide)

/-- Digits behind a stem leave it one. -/
theorem IsGroupStem.append_digits {stem digits : List Char} (h : IsGroupStem stem)
    (hdigits : ∀ c ∈ digits, c.isDigit) : IsGroupStem (stem ++ digits) := by
  cases h with
  | plain h =>
    refine .plain fun c hc => ?_
    rcases mem_append.1 hc with hc | hc
    · exact h c hc
    · exact isAlphanumeric_of_isDigit (hdigits c hc)
  | @marked front digits' h =>
    rw [show front ++ '_' :: ("group".toList ++ digits') ++ digits =
      front ++ '_' :: ("group".toList ++ (digits' ++ digits)) by simp]
    refine .marked front fun c hc => ?_
    exact (mem_append.1 hc).elim (h c) (hdigits c)

theorem isGroupStem_fileStem (segment : String) : IsGroupStem (fileStem segment) := by
  unfold fileStem
  by_cases hempty : segment = ""
  · rw [if_pos hempty]
    exact .plain (all_eq_true.1 (by decide))
  · rw [if_neg hempty]
    by_cases hmark : isAmbiguous (plainSegment segment)
    · rw [if_pos hmark]
      exact .marked _ (forall_mem_nil _)
    · -- Without an underscore in it, nothing was replaced.
      rw [if_neg hmark, append_nil]
      refine .plain fun c hc => ?_
      have hne : c ≠ '_' := by
        rintro rfl
        exact hmark (by simp [isAmbiguous, hc])
      obtain ⟨d, -, rfl⟩ := mem_map.1 hc
      by_cases hd : isAlphanumeric d
      · rwa [if_pos hd]
      · rw [if_neg hd] at hne
        exact absurd rfl hne

/-- **The last word is `group`.** A word that a group's stem ends in, behind its last underscore, begins
    with `group`. -/
theorem IsGroupStem.group_isPrefix {stem word : List Char} (h : IsGroupStem stem) (hword : '_' ∉ word)
    (hend : '_' :: word <:+ stem) : "group".toList <+: word := by
  cases h with
  | plain h =>
    exact absurd (hend.subset mem_cons_self) (underscore_notMem h)
  | @marked front digits h =>
    have hrest : '_' ∉ "group".toList ++ digits := by
      rw [mem_append, not_or]
      exact ⟨by decide, underscore_notMem fun c hc => isAlphanumeric_of_isDigit (h c hc)⟩
    obtain ⟨before, hbefore⟩ := hend
    -- Both sides are cut at their last underscore.
    have hcut := congrArg (cutLast? '_') hbefore
    rw [cutLast?_of_notMem hword, cutLast?_of_notMem hrest] at hcut
    obtain ⟨-, rfl⟩ := Prod.mk.inj (some.inj hcut)
    exact prefix_append _ _

/-- A file with such a stem ends in no word that the build tool looks for. -/
theorem IsGroupStem.not_endsInWord {stem : List Char} (h : IsGroupStem stem) {name word : String}
    (hname : name.toList = stem ++ ".go".toList) (hword : '_' ∉ word.toList)
    (hgroup : ¬ "group".toList <+: word.toList) : ¬ EndsInWord name word := by
  intro hend
  rw [EndsInWord, hname, String.toList_append, suffix_append_inj_of_length_eq rfl] at hend
  have hlast : '_' :: word.toList <:+ stem := by simpa using hend.1
  exact hgroup (h.group_isPrefix hword hlast)

/-! ### The first character -/

/-- A segment that begins with a letter or digit, or with nothing. -/
def LedPlainly (segment : String) : Prop := ∀ c ∈ segment.toList.head?, isAlphanumeric c

instance (segment : String) : Decidable (LedPlainly segment) :=
  decidable_of_iff (segment.toList.head?.all isAlphanumeric) (by simp [LedPlainly, Option.all_eq_true])

theorem ledPlainly_iff {segment : String} {c : Char} (h : segment.toList.head? = some c) :
    LedPlainly segment ↔ isAlphanumeric c := by
  unfold LedPlainly
  rw [h]
  simp

/-- A file begins as its segment does, with an underscore for anything but a letter or digit. -/
theorem head?_fileStem (segment : String) :
    ∃ c, (fileStem segment).head? = some c ∧
      (LedPlainly segment → isAlphanumeric c) ∧ (¬ LedPlainly segment → c = '_') := by
  unfold fileStem
  cases hhead : segment.toList.head? with
  | none =>
    have hempty : segment = "" := String.toList_eq_nil_iff.1 (head?_eq_none_iff.1 hhead)
    subst hempty
    exact ⟨'r', rfl, by decide, by decide⟩
  | some d =>
    have hne : segment ≠ "" := by
      rintro rfl
      simp at hhead
    rw [if_neg hne, head?_append, plainSegment, head?_map, hhead, ledPlainly_iff hhead]
    refine ⟨_, rfl, fun hd => ?_, fun hd => if_neg hd⟩
    simp only [if_pos hd]
    exact hd

/-! ### Files of groups -/

section Group

variable {groups : List RouteGroup} {g : NamedGroup} (hg : g ∈ nameGroups groups)
include hg

/-- No file of a group ends in a word that the build tool looks for. -/
theorem not_endsInWord_file {word : String} (hword : '_' ∉ word.toList)
    (hgroup : ¬ "group".toList <+: word.toList) : ¬ EndsInWord g.file word := by
  obtain ⟨digits, hdigits, hfile⟩ := exists_file_eq hg
  exact ((isGroupStem_fileStem g.segment).append_digits hdigits).not_endsInWord hfile hword hgroup

/-- The first character of a group's file. -/
theorem head?_file : ∃ c, g.file.toList.head? = some c ∧
    (LedPlainly g.segment → isAlphanumeric c) ∧ (¬ LedPlainly g.segment → c = '_') := by
  obtain ⟨digits, -, hfile⟩ := exists_file_eq hg
  obtain ⟨c, hc, hcase⟩ := head?_fileStem g.segment
  refine ⟨c, ?_, hcase⟩
  rw [hfile, append_assoc, head?_append, hc]
  rfl

/-- A file of a group begins with an underscore exactly when its segment is not led plainly. -/
theorem head?_file_eq_underscore_iff : g.file.toList.head? = some '_' ↔ ¬ LedPlainly g.segment := by
  obtain ⟨c, hhead, hplain, hother⟩ := head?_file hg
  rw [hhead, some_inj]
  refine ⟨?_, hother⟩
  rintro rfl hled
  exact absurd (hplain hled) (by decide)

theorem head?_file_ne_dot : g.file.toList.head? ≠ some '.' := by
  obtain ⟨c, hhead, hplain, hother⟩ := head?_file hg
  rw [hhead]
  rintro ⟨⟩
  by_cases hled : LedPlainly g.segment
  · exact absurd (hplain hled) (by decide)
  · exact absurd (hother hled) (by decide)

/-- In particular, no file of a group belongs to one system or processor. -/
theorem not_endsInWord_known : ∀ word ∈ knownSystems ++ knownProcessors, ¬ EndsInWord g.file word := by
  have hwords : ∀ word ∈ knownSystems ++ knownProcessors,
      '_' ∉ word.toList ∧ ¬ "group".toList <+: word.toList := by decide
  exact fun word hword => not_endsInWord_file hg (hwords word hword).1 (hwords word hword).2

/-- **What is left is the first character.** A group file is built exactly when its segment is led
    plainly. -/
theorem builtEverywhere_file_iff : BuiltEverywhere g.file ↔ LedPlainly g.segment := by
  constructor
  · intro h
    by_contra hled
    exact h.notUnderscore ((head?_file_eq_underscore_iff hg).2 hled)
  · intro hled
    exact {
      notUnderscore := fun h => (head?_file_eq_underscore_iff hg).1 h hled
      notDot := head?_file_ne_dot hg
      notTest := not_endsInWord_file hg (by decide) (by decide)
      notSystem := fun word hword => not_endsInWord_known hg word (mem_append_left _ hword)
      notProcessor := fun word hword => not_endsInWord_known hg word (mem_append_right _ hword) }

end Group

/-! ### Functions of the files -/

theorem exists_head_registerLines? {head : String} {entries : List Registration} {lines : List String}
    (h : registerLines? head entries = some lines) : ∃ tail rest, lines = (head ++ tail) :: rest := by
  unfold registerLines? at h
  split at h
  · obtain rfl := some.inj h
    split
    · exact ⟨" \x7b\x7d", [], rfl⟩
    · exact ⟨" \x7b", _, rfl⟩
  · split at h
    · obtain rfl := some.inj h
      exact ⟨" \x7b", _, rfl⟩
    · obtain ⟨body, -, rfl⟩ := map_eq_some_iff.1 h
      exact ⟨" " ++ String.ofList body, [], by simp [String.append_assoc]⟩

/-- The function that registers a group has the name of the group's own, however its body was laid out. -/
theorem functionName?_of_registerFunction? {g : NamedGroup} {entries : List Registration}
    {d : Declaration} (hd : registerFunction? g entries = some d) (hparen : '(' ∉ g.register.toList) :
    d.functionName? = some g.register := by
  obtain ⟨lines, hlines, rfl⟩ := map_eq_some_iff.1 hd
  obtain ⟨tail, rest, rfl⟩ := exists_head_registerLines? hlines
  have hhead : "func " ++ g.register ++ "(r gin.IRouter)" ++ tail =
      "func " ++ (g.register ++ ("(" ++ ("r gin.IRouter)" ++ tail))) := by
    rw [show "(" ++ ("r gin.IRouter)" ++ tail) = "(r gin.IRouter)" ++ tail from
      String.append_assoc.symm, String.append_assoc, String.append_assoc]
  exact functionName?_of_head _ rfl hparen (congrArg (· :: rest) hhead)

/-- The functions of a group's file: the one that registers the group, and handlers of its own. -/
theorem functionNames_groupFile? {s : Service} {engine : Option Engine} {g : NamedGroup}
    {file : SourceFile} (hg : g.Named) (hfile : groupFile? s engine g = some file) :
    some g.register ∈ file.declarations.map Declaration.functionName? ∧
      ∀ name, some name ∈ file.declarations.map Declaration.functionName? → name ∈ g.identifiers := by
  have hparen := hg.paren_notMem _ mem_cons_self
  unfold groupFile? at hfile
  cases engine with
  | none =>
    obtain ⟨d, hd, rfl⟩ := map_eq_some_iff.1 hfile
    simp [functionName?_of_registerFunction? hd hparen, NamedGroup.identifiers]
  | some e =>
    obtain ⟨d, hd, rfl⟩ := map_eq_some_iff.1 hfile
    rw [map_cons, functionName?_of_registerFunction? hd hparen]
    refine ⟨mem_cons_self, fun name hname => ?_⟩
    rcases mem_cons.1 hname with hname | hname
    · exact some.inj hname ▸ mem_cons_self
    · obtain ⟨handler, hhandler, hnamed⟩ := mem_map.1 hname
      obtain ⟨n, hn, hmade⟩ := mem_filterMap.1 hhandler
      have hmem : n.handler ∈ g.handlers := by
        rw [← hg.map_handler]
        exact mem_map_of_mem ((mountedRoutes_sublist g).subset hn)
      rw [functionName?_of_handlerFunction? hmade (hg.paren_notMem _ (mem_cons_of_mem _ hmem))] at hnamed
      exact some.inj hnamed ▸ mem_cons_of_mem _ hmem

/-- An identifier belongs to one group. -/
theorem group_eq_of_mem_identifiers {groups : List RouteGroup} {g h : NamedGroup} (hg : g ∈ nameGroups groups)
    (hh : h ∈ nameGroups groups) {x : String} (hx : x ∈ g.identifiers) (hx' : x ∈ h.identifiers) : g = h := by
  obtain ⟨-, hdisjoint⟩ := nodup_flatMap.1 (nodup_identifiers groups).1
  have : Std.Symm (Function.onFun Disjoint NamedGroup.identifiers) := ⟨fun _ _ h _ hx hy => h hy hx⟩
  by_contra hne
  exact hdisjoint.forall hg hh hne hx hx'

/-- The other files of the package have functions of reserved names only. -/
theorem functionNames_authRoutesFile (settings : Settings) (engine : Option Engine) :
    some "RegisterAuth" ∈ (authRoutesFile settings engine).declarations.map Declaration.functionName? ∧
      ∀ name, some name ∈ (authRoutesFile settings engine).declarations.map Declaration.functionName? →
        name ∈ reservedNames := by
  have hregister : registerAuthFunction.functionName? = some "RegisterAuth" :=
    functionName?_of_lines "r gin.IRouter)" rfl (by decide) rfl
  cases engine with
  | none =>
    have hone : (unavailableFunction "authRegister").functionName? = some "authRegister" :=
      functionName?_of_lines "c *gin.Context)" rfl (by decide) rfl
    have htwo : (unavailableFunction "authLogin").functionName? = some "authLogin" :=
      functionName?_of_lines "c *gin.Context)" rfl (by decide) rfl
    simp [authRoutesFile, hregister, hone, htwo, reservedNames]
  | some e =>
    have hone : (registerHandler e).functionName? = some "authRegister" :=
      functionName?_of_lines "c *gin.Context)" rfl (by decide) rfl
    have htwo : (loginHandler e).functionName? = some "authLogin" :=
      functionName?_of_lines "c *gin.Context)" rfl (by decide) rfl
    have hconstant : (passwordCost settings.bcryptCost).functionName? = none := rfl
    have htype : credentialsType.functionName? = none := rfl
    simp [authRoutesFile, hregister, hone, htwo, hconstant, htype, reservedNames]

theorem functionNames_indexFile (s : Service) (hasEngine : Bool) (groups : List NamedGroup) :
    (indexFile s hasEngine groups).declarations.map Declaration.functionName? = [some "Mount"] :=
  congrArg ([·]) (functionName?_of_lines "ctx context.Context, r gin.IRouter) error" rfl (by decide) rfl)

theorem NamedGroup.Named.isPrefixOf_register {g : NamedGroup} (hg : g.Named) :
    "Register".toList.isPrefixOf g.register.toList := by
  obtain ⟨k, hk⟩ := hg.register_eq
  rw [hk, numbered, registerName, isPrefixOf_iff_prefix]
  split
  · rw [String.toList_append]
    exact prefix_append _ _
  · rw [String.toList_append, String.toList_append, append_assoc]
    exact prefix_append _ _

/-! ### Functions of the built package -/

/-- The routes package as it is built has a function of this name. -/
def Generator.Builds (gen : Generator) (function : String) : Prop :=
  ∃ name file, gen.Makes ("routes/" ++ name) file ∧ BuiltEverywhere name ∧
    some function ∈ file.declarations.map Declaration.functionName?

/-- The functions for registering that the mounting function calls, line by line. -/
def Generator.mountedFunctions (gen : Generator) : List String :=
  ((mountBody gen.service gen.target.isSome gen.groups).map calledName).filter
    fun name => "Register".toList.isPrefixOf name.toList

namespace Generator

variable {gen : Generator}

/-- The files of the routes package. -/
theorem makes_routes {name : String} {file : SourceFile} (h : gen.Makes ("routes/" ++ name) file) :
    (file = authRoutesFile gen.settings gen.target ∨
      file = indexFile gen.service gen.target.isSome gen.groups) ∨
    ∃ group ∈ gen.groups, name = group.file ∧ groupFile? gen.service gen.target group = some file := by
  generalize hpath : "routes/" ++ name = path at h
  have hhead : path.toList.head? = some 'r' := by
    rw [← hpath, String.toList_append]
    rfl
  cases h with
  | app => exact absurd hhead (by decide)
  | database => exact absurd hhead (by decide)
  | auth => exact absurd hhead (by decide)
  | authRoutes => exact .inl (.inl rfl)
  | index => exact .inl (.inr rfl)
  | @group group _ hgroup hfile => exact .inr ⟨group, hgroup, (String.append_right_inj _).1 hpath, hfile⟩

/-- The function of a group is built exactly when the file of this group is. -/
theorem builds_register_iff {g : NamedGroup} (hg : g ∈ gen.groups)
    (hmade : (groupFile? gen.service gen.target g).isSome) :
    gen.Builds g.register ↔ BuiltEverywhere g.file := by
  constructor
  · rintro ⟨name, file, hmakes, hbuilt, hfunction⟩
    have hfresh := (nodup_identifiers (Route.groups gen.service.routes)).2 g.register
      (mem_flatMap.2 ⟨g, hg, mem_cons_self⟩)
    rcases makes_routes hmakes with (rfl | rfl) | ⟨group, hgroup, rfl, hfile⟩
    · exact absurd ((functionNames_authRoutesFile _ _).2 _ hfunction) hfresh
    · rw [functionNames_indexFile, mem_singleton] at hfunction
      rw [some.inj hfunction] at hfresh
      exact absurd hfresh (by decide)
    · -- Identifiers are distinct over all groups, so that the function is in its own group's file.
      have hmem := (functionNames_groupFile? (named_of_mem_nameGroups hgroup) hfile).2 _ hfunction
      exact group_eq_of_mem_identifiers hg hgroup mem_cons_self hmem ▸ hbuilt
  · intro hbuilt
    obtain ⟨file, hfile⟩ := isSome_iff_exists.1 hmade
    exact ⟨g.file, file, .group hg hfile, hbuilt,
      (functionNames_groupFile? (named_of_mem_nameGroups hg) hfile).1⟩

/-- The lines of the mounting function call the login routes, if there are any, and the groups. -/
theorem mem_mountedFunctions_iff {name : String} :
    name ∈ gen.mountedFunctions ↔
      (gen.service.tokenAuth ∧ name = "RegisterAuth") ∨ ∃ g ∈ gen.groups, name = g.register := by
  have hgroups : ∀ g ∈ gen.groups, calledName (mountLine g.register g.mountPath) = g.register := fun g hg =>
    calledName_mountLine ((named_of_mem_nameGroups hg).paren_notMem _ mem_cons_self) _
  have hauth : calledName (mountLine "RegisterAuth" "/auth") = "RegisterAuth" :=
    calledName_mountLine (by decide) _
  have hwait : ∀ line ∈ ifFails "err := db.Wait(ctx)" ["return err"],
      ¬ "Register".toList.isPrefixOf (calledName line).toList := by decide +kernel
  have hreturn : ¬ "Register".toList.isPrefixOf (calledName "return nil").toList := by decide
  rw [mountedFunctions, mem_filter, List.mem_map]
  constructor
  · rintro ⟨⟨line, hline, rfl⟩, hregister⟩
    simp only [mountBody, mem_append, mem_singleton] at hline
    rcases hline with ((hline | hline) | hline) | rfl
    · split at hline
      · exact absurd hregister (hwait line hline)
      · exact absurd hline not_mem_nil
    · split at hline
      · rename_i htoken
        rw [mem_singleton.1 hline, hauth]
        exact .inl ⟨htoken, rfl⟩
      · exact absurd hline not_mem_nil
    · obtain ⟨g, hg, rfl⟩ := mem_map.1 hline
      exact .inr ⟨g, hg, hgroups g hg⟩
    · exact absurd hregister hreturn
  · rintro (⟨htoken, rfl⟩ | ⟨g, hg, rfl⟩)
    · refine ⟨⟨_, ?_, hauth⟩, by decide⟩
      simp [mountBody, htoken]
    · refine ⟨⟨_, ?_, hgroups g hg⟩, ?_⟩
      · simp only [mountBody, mem_append, List.mem_map]
        exact .inl (.inr ⟨g, hg, rfl⟩)
      · exact (named_of_mem_nameGroups hg).isPrefixOf_register

/-- Where no file is refused, the mounting function finds what it calls exactly when the files of all groups are
    built. -/
theorem builds_mounted_iff (hmade : ∀ g ∈ gen.groups, (groupFile? gen.service gen.target g).isSome) :
    (∀ name ∈ gen.mountedFunctions, gen.Builds name) ↔ ∀ g ∈ gen.groups, BuiltEverywhere g.file := by
  constructor
  · intro h g hg
    exact (builds_register_iff hg (hmade g hg)).1 (h _ (mem_mountedFunctions_iff.2 (.inr ⟨g, hg, rfl⟩)))
  · intro h name hname
    rcases mem_mountedFunctions_iff.1 hname with ⟨htoken, rfl⟩ | ⟨g, hg, rfl⟩
    · have hbuilt : BuiltEverywhere "auth.go" := by constructor <;> decide
      exact ⟨"auth.go", _, .authRoutes htoken, hbuilt, (functionNames_authRoutesFile _ _).1⟩
    · exact (builds_register_iff hg (hmade g hg)).2 (h g hg)

end Generator

/-- **Which group files are built.** Whatever the routes are, no file of a group begins with a dot, is one of a
    test, or belongs to one system or processor, and it begins with an underscore exactly when its segment begins
    with something else than a letter or digit, so that this alone decides whether it is built.  The mounting
    function stands in a file that is built, with a call for each group; where the files of the groups can be made,
    it finds all that it calls exactly when no route has such a segment. -/
theorem built_iff_segments_ledPlainly (gen : Generator) :
    (∀ g ∈ gen.groups,
      g.file.toList.head? ≠ some '.' ∧ ¬ EndsInWord g.file "test" ∧
      (∀ word ∈ knownSystems ++ knownProcessors, ¬ EndsInWord g.file word) ∧
      (g.file.toList.head? = some '_' ↔ ¬ LedPlainly g.segment) ∧
      (BuiltEverywhere g.file ↔ LedPlainly g.segment)) ∧
    (BuiltEverywhere "index.go" ∧ ∃ d, gen.Makes "routes/index.go" { package := "routes", declarations := [d] } ∧
      d.lines = block "func Mount(ctx context.Context, r gin.IRouter) error"
        (mountBody gen.service gen.target.isSome gen.groups) ∧
      ∀ g ∈ gen.groups, g.register ∈ gen.mountedFunctions) ∧
    ((∀ g ∈ gen.groups, (groupFile? gen.service gen.target g).isSome) →
      ((∀ name ∈ gen.mountedFunctions, gen.Builds name) ↔ ∀ r ∈ gen.service.routes, LedPlainly r.segment)) := by
  refine ⟨fun g hg => ?_, ⟨by constructor <;> decide, _, .index, rfl, fun g hg => ?_⟩, fun hmade => ?_⟩
  · exact ⟨head?_file_ne_dot hg, not_endsInWord_file hg (by decide) (by decide), not_endsInWord_known hg,
      head?_file_eq_underscore_iff hg, builtEverywhere_file_iff hg⟩
  · exact Generator.mem_mountedFunctions_iff.2 (.inr ⟨g, hg, rfl⟩)
  · rw [Generator.builds_mounted_iff hmade]
    constructor
    · intro h r hr
      obtain ⟨g, hg, hsegment, -⟩ := exists_group hr
      exact hsegment ▸ (builtEverywhere_file_iff hg).1 (h g hg)
    · intro h g hg
      obtain ⟨r, hr⟩ := NamedGroup.exists_mem_routes hg
      obtain ⟨hmem, hsegment⟩ := (NamedGroup.mem_routes_iff hg).1 hr
      exact (builtEverywhere_file_iff hg).2 (hsegment ▸ h r hmem)

/-! ### A file that is passed over -/

/-- A generator for two routes: the segment of the first could be taken for a file of one system, and that of the
    second is a parameter. -/
def parameterFirst : Generator where
  service := {
    routes :=
      [ { method := "GET", path := "/app_linux/all", action := .listAll, collection := "items" },
        { method := "GET", path := "/:id", action := .listAll, collection := "items" } ] }

def parameterFirstGroups : List NamedGroup :=
  [ { segment := "app_linux", routes := parameterFirst.service.routes.take 1, register := "RegisterAppLinux",
      file := "app_linux_group.go", handlers := ["listItems"] },
    { segment := ":id", routes := parameterFirst.service.routes.drop 1, register := "RegisterID",
      file := "_id_group.go", handlers := ["listItems2"] } ]

theorem groups_parameterFirst : parameterFirst.groups = parameterFirstGroups := by decide +kernel

theorem isSome_groupFile_parameterFirst :
    ∀ g ∈ parameterFirst.groups, (groupFile? parameterFirst.service parameterFirst.target g).isSome := by
  rw [groups_parameterFirst]
  decide +kernel

/-- The condition at this generator. -/
theorem built_iff_parameterFirst :
    (∀ g ∈ parameterFirst.groups, (groupFile? parameterFirst.service parameterFirst.target g).isSome) ∧
    ((∀ name ∈ parameterFirst.mountedFunctions, parameterFirst.Builds name) ↔
      ∀ r ∈ parameterFirst.service.routes, LedPlainly r.segment) :=
  ⟨isSome_groupFile_parameterFirst,
    (built_iff_segments_ledPlainly parameterFirst).2.2 isSome_groupFile_parameterFirst⟩

/-- **A mounted group that is not built.** The group of the parameter has a file that begins with an underscore, so
    that the mounting function calls a function that the built package does not have. -/
theorem not_builds_parameterFirst :
    (parameterFirst.groups.map NamedGroup.file) = ["app_linux_group.go", "_id_group.go"] ∧
      ¬ BuiltEverywhere "_id_group.go" ∧ "RegisterID" ∈ parameterFirst.mountedFunctions ∧
      ¬ parameterFirst.Builds "RegisterID" := by
  have hmem : parameterFirstGroups.getLast (by decide) ∈ parameterFirst.groups := by
    rw [groups_parameterFirst]
    exact List.getLast_mem _
  have hhidden : ¬ BuiltEverywhere "_id_group.go" := fun h => h.notUnderscore rfl
  refine ⟨by rw [groups_parameterFirst]; rfl, hhidden, ?_, fun hbuilds => hhidden ?_⟩
  · exact Generator.mem_mountedFunctions_iff.2 (.inr ⟨_, hmem, rfl⟩)
  · exact (Generator.builds_register_iff hmem (isSome_groupFile_parameterFirst _ hmem)).1 hbuilds

end ServiceCompiler
