import ServiceCompiler.Code.Fragment.Lexeme
import ServiceCompiler.Proofs.Naming.File
import ServiceCompiler.Proofs.Text.Pieces

namespace ServiceCompiler

open Text Code.Fragment List Naming

open Code.Fragment (isName keywords)

/-!
# Valid and distinct names

The names of the routes package are names of the generated language, as long as paths and collections are
written in ASCII, and they are apart from each other in any case.

* `Naming.isAlphanumeric_joinedName` — a name joined from ASCII words holds letters and digits only; taking
  the singular does not lead out of ASCII (`Naming.isWord_singular`).
* `Naming.IsLed` — every identifier starts with one of a few words and goes on with letters and digits, which
  makes it a name and no keyword (`Naming.IsLed.isName`).
* `NamedApart` — the whole account of the names of a list of groups; `namedApart_nameGroups` proves it.
-/

/-! ### ASCII letters and digits -/

namespace Text

variable {c : Char}

def isAlphanumeric (c : Char) : Bool := isAsciiLetter c || isDigit c

/-- A property of ASCII characters can be checked one by one. -/
theorem forall_ascii {P : Char → Prop} (h : ∀ n < 128, P (Char.ofNat n)) (hc : c.toNat < 128) : P c := by
  have hchar := h c.toNat hc
  rwa [Char.ofNat_toNat] at hchar

theorem toNat_lt_of_isWordChar (h : isWordChar c) : c.toNat < 128 := by
  simp only [isWordChar, isAsciiLetter, isDigit, Bool.or_eq_true, decide_eq_true_eq, Char.le_def,
    UInt32.le_iff_toNat_le, beq_iff_eq] at h
  have hval : c.toNat = c.val.toNat := rfl
  rcases h with ((⟨-, hz⟩ | ⟨-, hZ⟩) | ⟨-, h9⟩) | rfl
  · have : 'z'.val.toNat = 122 := rfl
    omega
  · have : 'Z'.val.toNat = 90 := rfl
    omega
  · have : '9'.val.toNat = 57 := rfl
    omega
  · decide

theorem isWordChar_of_isAlphanumeric (h : isAlphanumeric c) : isWordChar c := by
  rw [isWordChar, ← isAlphanumeric, h]
  rfl

/-- The letters and digits of ASCII are the alphanumeric characters, which changing case does not lead out
    of and which may all stand in a name. -/
theorem isAlphanumeric_ascii (hc : c.toNat < 128) :
    ((isLetter c || isDecimalDigit c) → isAlphanumeric c) ∧
      (isAlphanumeric c →
        isAlphanumeric (toUpper c) ∧ isAlphanumeric (toLower c) ∧ isNameChar c) :=
  forall_ascii (P := fun c => ((isLetter c || isDecimalDigit c) → isAlphanumeric c) ∧
      (isAlphanumeric c →
        isAlphanumeric (toUpper c) ∧ isAlphanumeric (toLower c) ∧ isNameChar c))
    (by decide +kernel) hc

theorem isAlphanumeric_closed (h : isAlphanumeric c) :
    isAlphanumeric (toUpper c) ∧ isAlphanumeric (toLower c) ∧ isNameChar c :=
  (isAlphanumeric_ascii (toNat_lt_of_isWordChar (isWordChar_of_isAlphanumeric h))).2 h

/-- Among the characters of a path segment, the letters and digits are those of ASCII. -/
theorem isAlphanumeric_of_isLetter (hc : isWordChar c ∨ c = ':') (h : isLetter c || isDecimalDigit c) :
    isAlphanumeric c := by
  have hascii : c.toNat < 128 := by
    rcases hc with hc | rfl
    · exact toNat_lt_of_isWordChar hc
    · decide
  exact (isAlphanumeric_ascii hascii).1 h

theorem isAlphanumeric_of_mem_decimal {k : Nat} (h : c ∈ (decimal k).toList) : isAlphanumeric c := by
  rw [isAlphanumeric, isDigit_eq, isDigit_of_mem_decimal h, Bool.or_true]

end Text

/-! ### Joined names -/

namespace Naming

variable {word name : String}

/-- A word of ASCII letters, digits and underscores; a path segment may hold colons besides. -/
def IsWord (word : String) : Prop := ∀ c ∈ word.toList, isWordChar c

def IsSegment (segment : String) : Prop := ∀ c ∈ segment.toList, isWordChar c ∨ c = ':'

-- Both are decided over the characters of the text, not over all characters.
instance (word : String) : Decidable (IsWord word) := decidableBAll _ _

instance (segment : String) : Decidable (IsSegment segment) := decidableBAll _ _

theorem IsWord.isSegment (h : IsWord word) : IsSegment word := fun c hc => .inl (h c hc)

theorem isAlphanumeric_nameWord {word : List Char} (h : ∀ c ∈ word, isAlphanumeric c) :
    ∀ c ∈ nameWord word, isAlphanumeric c := by
  intro c hc
  rw [nameWord] at hc
  split at hc
  · obtain ⟨d, hd, rfl⟩ := mem_map.1 hc
    exact (isAlphanumeric_closed (h d hd)).1
  · cases word with
    | nil => simp [capitalized] at hc
    | cons first rest =>
      obtain ⟨hfirst, hrest⟩ := forall_mem_cons.1 h
      rw [capitalized, mem_cons, mem_map] at hc
      rcases hc with rfl | ⟨d, hd, rfl⟩
      · exact (isAlphanumeric_closed hfirst).1
      · split
        · exact hrest d hd
        · exact (isAlphanumeric_closed (hrest d hd)).2.1

/-- **Joined names** of ASCII words hold letters and digits only. -/
theorem isAlphanumeric_joinedName {s : String} (h : IsSegment s) : ∀ c ∈ (joinedName s).toList, isAlphanumeric c := by
  intro c hc
  rw [joinedName, String.toList_ofList, mem_flatMap] at hc
  obtain ⟨word, hword, hc⟩ := hc
  refine isAlphanumeric_nameWord (fun d hd => ?_) c hc
  obtain ⟨hclass, hmem⟩ := (of_mem_runs hword).2 d hd
  exact isAlphanumeric_of_isLetter (h d hmem) hclass

theorem isWord_replace? {replacement result : String} {ending : Ending} (hword : IsWord word)
    (hreplacement : IsWord replacement) (h : ending.replace? replacement word = some result) : IsWord result := by
  cases ending with
  | whole w =>
    rw [Ending.replace?] at h
    split at h
    · obtain rfl := Option.some.inj h
      exact hreplacement
    · simp at h
  | tail ending =>
    obtain ⟨stem, hstem, rfl⟩ := Option.map_eq_some_iff.1 h
    obtain ⟨reversed, hreversed, rfl⟩ := Option.map_eq_some_iff.1 hstem
    intro c hc
    rw [String.toList_append, String.toList_ofList, mem_append, mem_reverse] at hc
    rcases hc with hc | hc
    · -- What is left of the word in front of the ending is a part of it.
      apply hword c
      rw [← mem_reverse, stripLead?_eq_some_iff.1 hreversed]
      exact mem_append_right _ hc
    · exact hreplacement c hc

/-- Taking the singular keeps a word. -/
theorem IsWord.getD (h : IsWord word) {found : Option String}
    (hfound : ∀ result, found = some result → IsWord result) : IsWord (found.getD word) := by
  cases found with
  | none => exact h
  | some result => exact hfound result rfl

theorem isWord_singular (h : IsWord word) : IsWord (singular word) := by
  rw [singular]
  split
  · exact h
  · refine h.getD fun result hfound => ?_
    obtain ⟨⟨ending, replacement⟩, hmem, hreplace⟩ := exists_of_findSome?_eq_some hfound
    have hreplacements : ∀ entry ∈ singularEndings, IsWord entry.2 := by decide +kernel
    exact isWord_replace? h (hreplacements _ hmem) hreplace

/-! ### Identifiers -/

/-- The words that identifiers of the routes package start with. -/
def leads : List String := ["Register", "list", "get", "create", "handle"]

/-- A text that starts with such a word and goes on with ASCII letters and digits. -/
def IsLed (name : String) : Prop :=
  ∃ lead ∈ leads, ∃ rest : List Char, name.toList = lead.toList ++ rest ∧
    ∀ c ∈ rest, isAlphanumeric c

theorem isLed_append {lead : String} (hlead : lead ∈ leads) (h : ∀ c ∈ name.toList, isAlphanumeric c) :
    IsLed (lead ++ name) :=
  ⟨lead, hlead, name.toList, String.toList_append, h⟩

theorem isLed_registerName {segment : String} (h : IsSegment segment) : IsLed (registerName segment) := by
  rw [registerName]
  refine isLed_append (by decide) ?_
  split
  · exact all_eq_true.1 (by decide)
  · exact isAlphanumeric_joinedName h

theorem isLed_handlerName {r : Route} (h : IsWord r.collection) : IsLed (handlerName r) := by
  have hplural : ∀ c ∈ (if joinedName r.collection = "" then "Root" else
      joinedName r.collection).toList, isAlphanumeric c := by
    split
    · exact all_eq_true.1 (by decide)
    · exact isAlphanumeric_joinedName h.isSegment
  have hsingular := isAlphanumeric_joinedName (isWord_singular h).isSegment
  rw [handlerName]
  split
  · exact isLed_append (by decide) hplural
  · exact isLed_append (by decide) hsingular
  · exact isLed_append (by decide) hsingular
  · exact isLed_append (by decide) hplural

theorem IsLed.numbered (h : IsLed name) (k : Nat) : IsLed (numbered name k) := by
  rw [ServiceCompiler.numbered]
  split
  · exact h
  · obtain ⟨lead, hlead, rest, hname, hrest⟩ := h
    refine ⟨lead, hlead, rest ++ (decimal k).toList, ?_, ?_⟩
    · rw [String.toList_append, hname, append_assoc]
    · intro c hc
      rcases mem_append.1 hc with hc | hc
      · exact hrest c hc
      · exact isAlphanumeric_of_mem_decimal hc

/-- Every lead is a name itself, and no keyword starts with one. -/
theorem isName_leads : ∀ lead ∈ leads,
    (∃ c rest, lead.toList = c :: rest ∧ isNameStart c ∧
      rest.all isNameChar) ∧
    ∀ keyword ∈ keywords, ¬ lead.toList <+: keyword.toList := by
  have hletters : ∀ lead ∈ leads, lead.toList.all isNameChar ∧
      (lead.toList.head?.any isNameStart) := by decide +kernel
  have hkeywords : ∀ lead ∈ leads, ∀ keyword ∈ keywords, ¬ lead.toList <+: keyword.toList := by
    decide +kernel
  intro lead hlead
  refine ⟨?_, hkeywords lead hlead⟩
  obtain ⟨hall, hhead⟩ := hletters lead hlead
  cases hchars : lead.toList with
  | nil => simp [hchars] at hhead
  | cons c rest =>
    rw [hchars] at hall hhead
    exact ⟨c, rest, rfl, by simpa using hhead, (Bool.and_eq_true _ _ ▸ hall).2⟩

/-- **Identifiers are names** of the generated language. -/
theorem IsLed.isName (h : IsLed name) : Code.Fragment.isName name.toList := by
  obtain ⟨lead, hlead, tail, hname, htail⟩ := h
  obtain ⟨⟨c, rest, hchars, hstart, hrest⟩, hkeyword⟩ := isName_leads lead hlead
  have hall : (rest ++ tail).all isNameChar := by
    rw [all_append, hrest, Bool.true_and, all_eq_true]
    exact fun d hd => (isAlphanumeric_closed (htail d hd)).2.2
  have hfree : keywords.contains (String.ofList name.toList) = false := by
    rw [contains_eq_mem, decide_eq_false_iff_not]
    intro hmem
    refine hkeyword _ hmem ?_
    rw [String.toList_ofList, hname]
    exact prefix_append _ _
  rw [hname, hchars, cons_append] at hfree ⊢
  simp only [Code.Fragment.isName, hstart, hall, hfree]
  rfl

end Naming

section

variable {g : NamedGroup} (hg : g.Named) (hsegment : IsSegment g.segment)
  (hroutes : ∀ r ∈ g.routes, IsWord r.collection)
include hg hsegment hroutes

/-- In groups of ASCII words every identifier starts with one of the leads. -/
theorem NamedGroup.Named.isLed 
    : ∀ x ∈ g.identifiers, IsLed x := by
  intro x hx
  rcases mem_cons.1 hx with rfl | hx
  · obtain ⟨k, hk⟩ := hg.register_eq
    rw [hk]
    exact (isLed_registerName hsegment).numbered k
  · obtain ⟨r, hr, k, hk⟩ := hg.handler_eq x hx
    rw [hk]
    exact (isLed_handlerName (hroutes r hr)).numbered k

/-- In groups of ASCII words all identifiers are names. -/
theorem NamedGroup.Named.isName 
    :
    ∀ x ∈ g.identifiers, isName x.toList := fun x hx => (hg.isLed hsegment hroutes x hx).isName

end

/-! ### The names of a routes package -/

/-- **The account** of the names that a list of groups gets. -/
structure NamedApart (groups : List RouteGroup) (named : List NamedGroup) : Prop where
  /-- Each group is there, in its place. -/
  groups_eq : named.map NamedGroup.toRouteGroup = groups
  length_handlers : ∀ g ∈ named, g.handlers.length = g.routes.length
  /-- All functions of all groups have different names, -/
  nodup_identifiers : (named.flatMap fun g => g.register :: g.handlers).Nodup
  /-- which the rest of the package leaves to them. -/
  identifiers_free : ∀ g ∈ named, ∀ x ∈ g.register :: g.handlers,
    x ∉ ["Mount", "RegisterAuth", "authRegister", "authLogin", "credentials", "passwordCost"]
  /-- All groups have different files, also where case does not count, -/
  nodup_files : (named.map fun g => lower g.file).Nodup
  /-- which the rest of the package leaves to them. -/
  files_free : ∀ g ∈ named, lower g.file ∉ ["index.go", "auth.go"]
  /-- Groups of ASCII words get names of the generated language. -/
  isName : (∀ g ∈ groups, IsSegment g.segment ∧ ∀ r ∈ g.routes, IsWord r.collection) →
    ∀ g ∈ named, ∀ x ∈ g.register :: g.handlers, Code.Fragment.isName x.toList

/-- **Names apart.** Whatever the groups are, the names they get are apart from each other and from those
    of the rest of the package. -/
theorem namedApart_nameGroups (groups : List RouteGroup) : NamedApart groups (nameGroups groups) where
  groups_eq := map_toRouteGroup_nameGroups groups
  length_handlers := fun g hg => (named_of_mem_nameGroups hg).length_handlers
  nodup_identifiers := (nodup_identifiers groups).1
  identifiers_free := fun g hg x hx =>
    (nodup_identifiers groups).2 x (List.mem_flatMap.2 ⟨g, hg, hx⟩)
  nodup_files := (nodup_files groups).1
  files_free := (nodup_files groups).2
  isName := by
    intro hwords g hg
    obtain ⟨hsegment, hroutes⟩ := hwords _ (toRouteGroup_mem hg)
    exact (named_of_mem_nameGroups hg).isName hsegment hroutes

/-- Groups whose wanted names meet: by case, by number and by repetition. -/
def clashingGroups : List RouteGroup :=
  [ ⟨"items", [{ action := .listAll, collection := "items" }, { action := .listAll, collection := "items" }]⟩,
    ⟨"Items", [{ action := .listAll, collection := "items2" }]⟩,
    ⟨":id", [{ action := .insert, collection := "categories" }]⟩,
    ⟨"auth", []⟩ ]

/-- The groups are of ASCII words, so their names are names of the generated language. -/
theorem namedApart_clashingGroups :
    (∀ g ∈ clashingGroups, Naming.IsSegment g.segment ∧ ∀ r ∈ g.routes, Naming.IsWord r.collection) ∧
      ∀ g ∈ nameGroups clashingGroups, ∀ x ∈ g.register :: g.handlers,
        Code.Fragment.isName x.toList :=
  have hwords : ∀ g ∈ clashingGroups,
      Naming.IsSegment g.segment ∧ ∀ r ∈ g.routes, Naming.IsWord r.collection := by decide
  ⟨hwords, (namedApart_nameGroups clashingGroups).isName hwords⟩

end ServiceCompiler
