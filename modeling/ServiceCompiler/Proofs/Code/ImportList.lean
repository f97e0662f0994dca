import ServiceCompiler.Code.Artifact
import ServiceCompiler.Proofs.Code.Token

namespace ServiceCompiler

open Code Text List

/-!
# The imports of a generated file

What a generated file imports, read from its text.

* `importPaths?` — the paths of the import declaration behind the package clause, which is the only one that a
  generated file has.
* `importPaths?_render` — a rendered file imports the packages that its declarations use, and no others.
-/

/-! ### Reading -/

/-- The paths between the brackets of an import list; a package may be imported for its effect only. -/
def importListFrom : List Token → Option (List Octets)
  | .mark ')' :: _ => some []
  | .text path :: ts => (importListFrom ts).map (path :: ·)
  | .word ['_'] :: .text path :: ts => (importListFrom ts).map (path :: ·)
  | _ => none

/-- The paths of an import declaration behind its keyword. -/
def importDeclaration? : List Token → Option (List Octets)
  | .mark '(' :: ts => importListFrom ts
  | .text path :: _ => some [path]
  | .word ['_'] :: .text path :: _ => some [path]
  | _ => none

/-- The imports of a file behind its package clause. -/
def importsBehindClause? : List Token → Option (List Octets)
  | .word keyword :: ts => if keyword = "import".toList then importDeclaration? ts else some []
  | _ => some []

/-- The paths that a file imports, read from its code. -/
def importPaths? (code : String) : Option (List Octets) :=
  match (codeLines code).flatMap tokens with
  | .word keyword :: .word _ :: ts => if keyword = "package".toList then importsBehindClause? ts else none
  | _ => none

/-! ### Import lines -/

/-- The tokens of the line that imports a package. -/
def specTokens (settings : Settings) (p : Package) : List Token :=
  (match p with
    | .driver _ => [.word ['_']]
    | _ => []) ++ [.text (Octets.ofString (p.path settings))]

section Lines

variable (settings : Settings)

theorem isLine_importSpec (p : Package) : IsLine (p.importSpec settings) := by
  cases p with
  | driver e => exact IsLine.append (by decide) (IsLine.quoted _)
  | _ => exact IsLine.quoted _

theorem tokens_quoted_end (s : String) : tokens (quoted s).toList = [.text (Octets.ofString s)] := by
  have h := tokens_quoted s []
  rwa [append_nil] at h

theorem tokens_importSpec (p : Package) : tokens (p.importSpec settings).toList = specTokens settings p := by
  cases p with
  | driver e =>
    show tokens ("_ " ++ quoted _).toList = _
    rw [String.toList_append]
    show tokens (['_'] ++ ' ' :: (quoted _).toList) = _
    rw [tokens_word_blank (by decide) (by decide), tokens_quoted_end]
    rfl
  | _ => exact tokens_quoted_end _

theorem importSpec_ne_empty (p : Package) : p.importSpec settings ≠ "" := by
  intro h
  have htokens := tokens_importSpec settings p
  rw [h] at htokens
  exact absurd htokens.symm (by simp [specTokens, tokens, tokensFrom])

theorem tokens_importList (packages : List Package) :
    ((indent (packages.map (·.importSpec settings))).flatMap codeLines).flatMap tokens =
      packages.flatMap (specTokens settings) := by
  induction packages with
  | nil => rfl
  | cons p packages ih =>
    have hline : indentLine (p.importSpec settings) = "\t" ++ p.importSpec settings :=
      if_neg (importSpec_ne_empty settings p)
    have htokens : tokens (indentLine (p.importSpec settings)).toList = specTokens settings p := by
      rw [hline, String.toList_append]
      exact (tokens_blank rfl _).trans (tokens_importSpec settings p)
    rw [map_cons, indent, map_cons, flatMap_cons, flatMap_append,
      (isLine_importSpec settings p).indentLine.codeLines, flatMap_singleton, htokens, flatMap_cons]
    exact congrArg _ ih

theorem importListFrom_specTokens (packages : List Package) (ts : List Token) :
    importListFrom (packages.flatMap (specTokens settings) ++ .mark ')' :: ts) =
      some (packages.map fun p => Octets.ofString (p.path settings)) := by
  induction packages with
  | nil => rfl
  | cons p packages ih =>
    have hstep : importListFrom (specTokens settings p ++ (packages.flatMap (specTokens settings) ++ .mark ')' :: ts)) =
        (importListFrom (packages.flatMap (specTokens settings) ++ .mark ')' :: ts)).map
          (Octets.ofString (p.path settings) :: ·) := by
      cases p <;> rfl
    rw [flatMap_cons, append_assoc, hstep, ih]
    rfl

/-- The import lines are read back as the paths of the packages, in the order of these paths. -/
theorem importsBehindClause?_importLines {packages : List Package} (hne : packages ≠ []) (ts : List Token) :
    ∃ sorted : List Package, sorted.Perm packages ∧
      importsBehindClause? (((SourceFile.importLines settings packages).flatMap codeLines).flatMap tokens ++ ts) =
        some (sorted.map fun p => Octets.ofString (p.path settings)) := by
  refine ⟨packages.mergeSort fun a b => before (a.path settings) (b.path settings), mergeSort_perm _ _, ?_⟩
  rw [SourceFile.importLines]
  have hlength : (packages.mergeSort fun a b => before (a.path settings) (b.path settings)).length = packages.length :=
    length_mergeSort packages
  cases hsorted : packages.mergeSort fun a b => before (a.path settings) (b.path settings) with
  | nil =>
    rw [hsorted] at hlength
    exact absurd (length_eq_zero_iff.1 hlength.symm) hne
  | cons p rest =>
    cases rest with
    | nil =>
      -- A single import stands on one line.
      have hline : IsLine ("import " ++ p.importSpec settings) :=
        IsLine.append (by decide) (isLine_importSpec settings p)
      have htokens : tokens ("import " ++ p.importSpec settings).toList =
          .word "import".toList :: specTokens settings p := by
        rw [String.toList_append]
        show tokens ("import".toList ++ ' ' :: (p.importSpec settings).toList) = _
        rw [tokens_word_blank (by decide) (by decide), tokens_importSpec]
      simp only [flatMap_cons, flatMap_nil, hline.codeLines, flatMap_append, htokens]
      show importDeclaration? _ = _
      cases p <;> rfl
    | cons q rest =>
      have hbracket : (codeLines "import (").flatMap tokens = [.word "import".toList, .mark '('] := by decide
      have hclose : ([")", ""].flatMap codeLines).flatMap tokens = [.mark ')'] := by decide
      have hlist := tokens_importList settings (p :: q :: rest)
      rw [flatMap_append, flatMap_append, flatMap_cons, flatMap_append, hbracket, hlist, hclose,
        append_assoc, append_assoc]
      exact importListFrom_specTokens settings (p :: q :: rest) _

end Lines

/-! ### Files -/

/-- The code of a generated file, which stands behind the header. -/
def Artifact.code? (settings : Settings) (a : Artifact) : Option String := do
  let header ← header? settings.header
  let code ← stripLead? header.toList a.content.toList
  return String.ofList code

theorem Artifact.code?_eq_some {settings : Settings} {a : Artifact} {header code : String}
    (hheader : header? settings.header = some header) (hcode : a.content = header ++ code) :
    a.code? settings = some code := by
  rw [Artifact.code?, hheader, hcode, String.toList_append]
  show (stripLead? header.toList (header.toList ++ code.toList)).bind _ = _
  rw [stripLead?_append]
  exact congrArg some String.ofList_toList

theorem mem_imports_iff {f : SourceFile} {p : Package} :
    p ∈ f.imports ↔ p ∈ f.effects ∨ ∃ d ∈ f.declarations, p ∈ d.uses := by
  rw [SourceFile.imports, mem_eraseDups, mem_append, mem_flatMap]

/-- A text of one word, such as the name of a package. -/
def IsWord (s : String) : Prop := s.toList ≠ [] ∧ s.toList.all isWordChar = true

instance (s : String) : Decidable (IsWord s) :=
  inferInstanceAs (Decidable (s.toList ≠ [] ∧ s.toList.all isWordChar = true))

theorem IsWord.isLine {s : String} (h : IsWord s) : IsLine s := fun hmem => absurd (all_eq_true.1 h.2 _ hmem) (by decide)

theorem tokens_packageClause {name : String} (h : IsWord name) :
    (codeLines ("package " ++ name)).flatMap tokens = [.word "package".toList, .word name.toList] := by
  have hname : tokens (name.toList ++ []) = [.word name.toList] := tokens_word h.1 h.2 (by simp)
  rw [append_nil] at hname
  rw [(IsLine.append (by decide) h.isLine).codeLines, flatMap_singleton, String.toList_append]
  show tokens ("package".toList ++ ' ' :: name.toList) = _
  rw [tokens_word_blank (by decide) (by decide), hname]

/-- A rendered file is the header with code behind it. -/
theorem exists_code_of_render {settings : Settings} {f : SourceFile} {content : String}
    (h : f.render? settings = some content) :
    ∃ header body, header? settings.header = some header ∧ SourceFile.bodyLines? none f.declarations = some body ∧
      content = header ++ ("\n".intercalate
        (["package " ++ f.package, ""] ++ SourceFile.importLines settings f.imports ++ body) ++ "\n") := by
  rw [SourceFile.render?] at h
  obtain ⟨header, hheader, h⟩ := Option.bind_eq_some_iff.1 h
  obtain ⟨body, hbody, h⟩ := Option.bind_eq_some_iff.1 h
  refine ⟨header, body, hheader, hbody, ?_⟩
  rw [← String.append_assoc]
  exact (Option.some.inj h).symm

/-- **The imports of a file.** The code of a rendered file imports the paths of the packages that it uses. -/
theorem importPaths?_render {settings : Settings} {f : SourceFile} {content : String} (hpackage : IsWord f.package)
    (himports : f.imports ≠ []) (h : f.render? settings = some content) :
    ∃ header code paths, header? settings.header = some header ∧ content = header ++ code ∧
      importPaths? code = some paths ∧
      ∀ path, path ∈ paths ↔ ∃ p ∈ f.imports, path = Octets.ofString (p.path settings) := by
  obtain ⟨header, body, hheader, -, rfl⟩ := exists_code_of_render h
  obtain ⟨sorted, hperm, hread⟩ := importsBehindClause?_importLines settings himports
    (((body.flatMap codeLines) ++ [[]]).flatMap tokens)
  refine ⟨header, _, sorted.map fun p => Octets.ofString (p.path settings), hheader, rfl, ?_, fun path => ?_⟩
  · rw [importPaths?, codeLines_joined (by simp)]
    simp only [flatMap_append, cons_append, nil_append, flatMap_cons,
      tokens_packageClause hpackage, append_assoc] at hread ⊢
    exact hread
  · simp only [mem_map, hperm.mem_iff, eq_comm]

end ServiceCompiler
