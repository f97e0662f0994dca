import ServiceCompiler.Compile
import ServiceCompiler.Proofs.Service.Document

namespace ServiceCompiler

open Compilation Service Document Generator List
open Document (Decode Writable isKey isFilled isPrintable isKept memberText memberFlag memberList memberTexts)
open Text (IsMadeOf)

/-!
# Services written and read back

A service that a source of printable characters builds is read back from its document in either format, is
written the same way again, and compiles to the same artifacts.

* `SameYaml` — documents that are written the same way in the block form.
* `ofBuild_filled` — missing lists of columns leave no trace in the artifacts.
* `roundTrip_ofSource` — the round trip.
* `unmarshal_json_of_kept` — the flow form is read back whenever it keeps the characters of its texts.
-/

/-! ### Missing lists -/

/-- The service with empty lists in the place of missing ones. -/
def Service.filled (s : Service) : Service := { s with migrations := s.migrations.map Migration.filled }

theorem Service.shown_false (s : Service) : s.shown false = s := by
  have hmigrations : s.migrations.map (Migration.shown false) = s.migrations := map_id s.migrations
  rw [shown, hmigrations]

@[simp] theorem Service.filled_filled (s : Service) : s.filled.filled = s.filled := by
  have hmigrations : (s.migrations.map Migration.filled).map Migration.filled = s.migrations.map Migration.filled := by
    rw [map_map]
    rfl
  rw [filled, filled, hmigrations]

/-- The documents are written the same way in the block form, wherever they stand. -/
structure SameYaml (d e : Document) : Prop where
  inline : ∀ step indent, d.inline? step indent = e.inline? step indent
  block : ∀ step indent, d.blockChars step indent = e.blockChars step indent

theorem SameYaml.refl (d : Document) : SameYaml d d := ⟨fun _ _ => rfl, fun _ _ => rfl⟩

theorem sameYaml_missingList : SameYaml (.list []) .missingList where
  inline _ _ := rfl
  block _ _ := by rw [blockChars, blockChars, itemChars]

theorem sameYaml_list {items items' : List Document} (h : Forall₂ SameYaml items items') :
    SameYaml (.list items) (.list items') := by
  have hitems : ∀ step indent, itemChars step indent items = itemChars step indent items' := by
    intro step indent
    induction h with
    | nil => rfl
    | cons hd htail ih =>
      rw [itemChars, itemChars, hd.inline, hd.block, ih]
      cases htail <;> rfl
  refine ⟨fun step indent => ?_, fun step indent => ?_⟩
  · cases h <;> rfl
  · rw [blockChars, blockChars, hitems]

/-- The members have the same keys and are written the same way. -/
def SameMembers (ms ms' : List (String × Document)) : Prop :=
  Forall₂ (fun m m' => m.1 = m'.1 ∧ SameYaml m.2 m'.2) ms ms'

theorem SameMembers.refl (ms : List (String × Document)) : SameMembers ms ms :=
  forall₂_same.2 fun m _ => ⟨rfl, .refl m.2⟩

theorem SameMembers.append {ms ms' ns ns' : List (String × Document)} (h : SameMembers ms ms')
    (h' : SameMembers ns ns') : SameMembers (ms ++ ns) (ms' ++ ns') := rel_append h h'

theorem sameYaml_record {ms ms' : List (String × Document)} (h : SameMembers ms ms') :
    SameYaml (.record ms) (.record ms') := by
  have hmembers : ∀ step indent, memberChars step indent ms = memberChars step indent ms' := by
    intro step indent
    induction h with
    | nil => rfl
    | @cons m m' _ _ hm htail ih =>
      obtain ⟨key, d⟩ := m
      obtain ⟨key', d'⟩ := m'
      obtain ⟨rfl, hd⟩ := hm
      rw [memberChars, memberChars, hd.inline, hd.block, ih]
      cases htail <;> rfl
  refine ⟨fun step indent => ?_, fun step indent => ?_⟩
  · cases h <;> rfl
  · rw [blockChars, blockChars, hmembers]

theorem sameMembers_memberList (key : String) {items items' : List Document}
    (h : Forall₂ SameYaml items items') : SameMembers (memberList key items) (memberList key items') := by
  cases h with
  | nil => exact .nil
  | cons hd htail => exact .cons ⟨rfl, sameYaml_list (.cons hd htail)⟩ .nil

theorem sameYaml_migration (m : Migration) : SameYaml m.filled.toDocument m.toDocument := by
  obtain ⟨table, fields⟩ := m
  cases fields with
  | none => exact sameYaml_record ((SameMembers.refl [("table", .text table)]).append
      (.cons ⟨rfl, sameYaml_missingList⟩ .nil))
  | some fields => exact .refl _

/-- Empty lists in the place of missing ones do not show in the block form. -/
theorem Service.toYaml_filled (s : Service) : s.filled.toDocument.toYaml 2 = s.toDocument.toYaml 2 := by
  have hmigrations : SameMembers (memberList "migrations" (s.filled.migrations.map Migration.toDocument))
      (memberList "migrations" (s.migrations.map Migration.toDocument)) := by
    have hitems : Forall₂ SameYaml (s.filled.migrations.map Migration.toDocument)
        (s.migrations.map Migration.toDocument) := by
      rw [filled, map_map, forall₂_map_left_iff, forall₂_map_right_iff, forall₂_same]
      exact fun m _ => sameYaml_migration m
    exact sameMembers_memberList "migrations" hitems
  have hlater : SameMembers s.filled.laterMembers s.laterMembers :=
    ((((SameMembers.refl _).append hmigrations).append (.refl _)).append (.refl _)).append (.refl _)
  have hsame : SameYaml s.filled.toDocument s.toDocument := by
    rw [Service.toDocument, Service.toDocument]
    exact sameYaml_record (.cons ⟨rfl, .refl _⟩ hlater)
  rw [toYaml, toYaml, hsame.inline, hsame.block]

/-! ### Artifacts -/

/-- Of a migration, a plan holds its table and its columns only. -/
theorem Engine.plan_filled (e : Engine) (migrations : List Migration) :
    e.plan (migrations.map Migration.filled) = e.plan migrations := by
  rw [Engine.plan, map_map]
  rfl

/-- The generator of the same service with no list missing. -/
def Generator.filled (g : Generator) : Generator := { g with service := g.service.filled }

theorem Generator.ofService_filled (settings : Settings) (s : Service) :
    ofService settings s.filled = (ofService settings s).map filled := by
  have hdatabase : s.filled.hasDatabase = s.hasDatabase := rfl
  have hdialect : s.filled.database.dialect = s.database.dialect := rfl
  rw [ofService, ofService, hdatabase, hdialect]
  split
  · cases Engine.ofName s.database.dialect <;> rfl
  · rfl

theorem Generator.tasks_filled (g : Generator) : g.filled.tasks = g.tasks := by
  have hsource : g.filled.databaseSource = g.databaseSource := by
    have htarget : g.filled.target = g.target := rfl
    have hplan : ∀ e : Engine, e.plan g.filled.service.migrations = e.plan g.service.migrations :=
      fun e => e.plan_filled g.service.migrations
    have hurl : g.filled.service.database.url = g.service.database.url := rfl
    simp only [databaseSource, htarget, hplan, hurl]
  rw [tasks, tasks, hsource]
  rfl

/-- **Missing lists leave no trace in the artifacts.** -/
theorem Generator.artifacts_filled (g : Generator) (stopped : Bool) :
    g.filled.artifacts stopped = g.artifacts stopped := by
  rw [artifacts, artifacts, tasks_filled]
  rfl

/-- What a compilation makes: the groups of the routes and the artifacts. -/
def Compilation.output (c : Compilation) : List NamedGroup × List Artifact := (c.groups, c.artifacts)

theorem Compilation.ofBuild_filled (changes : List Settings.Change) (stopped : Bool) (s : Service)
    (ws ws' : List Warning) :
    (ofBuild changes stopped ⟨s.filled, ws⟩).map output =
      (ofBuild changes stopped ⟨s, ws'⟩).map output := by
  rw [ofBuild, ofBuild]
  simp only [ofService_filled]
  cases (Settings.ofChanges changes).mapError Failure.settings with
  | error f => rfl
  | ok settings =>
    cases hg : ofService settings s with
    | error e =>
      simp only [bind, Except.bind, hg, Except.map, Except.mapError]
    | ok g =>
      have hartifacts := g.artifacts_filled stopped
      have hgroups : g.filled.groups = g.groups := rfl
      simp only [bind, Except.bind, hg, Except.map, Except.mapError, hartifacts, hgroups]
      cases g.artifacts stopped <;> rfl

/-! ### The round trip -/

/-- What the directives give passes the check of what is read. -/
theorem Service.WellFormed.check {s : Service} (hs : s.WellFormed) : s.check = .ok () := by
  have hdialect : ¬(s.database.dialect ≠ "" ∧ !Engine.names.contains s.database.dialect) := by
    rcases hs.dialect with h | h | h <;> rw [h] <;> decide
  have hstrategy : ¬(s.auth.strategy ≠ "" ∧ !([Auth.jwt].contains s.auth.strategy)) := by
    rcases hs.strategy with h | h <;> rw [h] <;> decide
  have hframework : ¬((s.frontend.map (·.framework)).getD "" ≠ "" ∧
      !([Frontend.react].contains ((s.frontend.map (·.framework)).getD ""))) := by
    cases hf : s.frontend with
    | none => decide
    | some f =>
      show ¬(f.framework ≠ "" ∧ !([Frontend.react].contains f.framework))
      rcases (hs.frontend f hf).framework with h | h <;> rw [h] <;> decide
  simp only [Service.check, if_neg hdialect, if_neg hstrategy, if_neg hframework]
  rfl

section Reading

variable {s : Service} (hs : s.WellFormed)
include hs

/-- A text whose tree shows the document of a service is read as the service. -/
theorem unmarshal_of_tree {listed : Bool} {text : String} {root : Node} {size : Nat}
    (hgives : Decode.Gives (decode {} root) (s.shown listed))
    (htree : Tree.ofText? text = some { root := some root, anchored := [], size := size + 1 }) :
    unmarshal text = .ok (s.shown listed) := by
  have hcheck : (s.shown listed).check = .ok () := hs.check
  rw [unmarshal, Decode.run_of_tree htree hgives]
  show (do (s.shown listed).check.mapError Failure.directive; return s.shown listed) = _
  rw [hcheck]
  rfl

theorem unmarshal_toYaml (hp : s.Spelled (isPrintable ·)) :
    unmarshal (s.toDocument.toYaml 2) = .ok s.filled := by
  have hread : ReadBack _ true 6 _ _ _ := readBack (fun _ h => h) hs hp
  have hwritable := hread.writable
  rw [Service.toDocument] at hwritable
  obtain ⟨root, size, hroot, htree⟩ := exists_tree_yaml 2 (by decide) hwritable (by decide)
  rw [← Service.toDocument] at hroot htree
  exact unmarshal_of_tree hs (hread.gives root hroot) htree

theorem unmarshal_toJson (hp : s.Spelled (isKept ·)) : unmarshal (s.toDocument.toJson ++ "\n") = .ok s := by
  have hread : ReadBack _ false 6 _ _ _ := readBack (fun _ => isKept_of_isPrintable) hs hp
  have hwritable := hread.writable
  rw [Service.toDocument] at hwritable
  obtain ⟨root, size, hroot, htree⟩ := exists_tree_json hwritable (by decide)
  rw [← Service.toDocument] at hroot htree
  rw [unmarshal_of_tree hs (hread.gives root hroot) htree, shown_false]

end Reading

/-- **The round trip.** A service that a source of printable characters and line breaks builds is written in
    either format and read back as the same service, up to lists that are missing or empty; it is written
    the same way again, and compiles to the same groups and artifacts as the source. -/
theorem roundTrip_ofSource {source format : String} {b : Build}
    (hsource : ∀ c ∈ source.toList, c = '\n' ∨ isPrintable c) (hb : Build.ofSource source = .ok b)
    (hformat : format ∈ documentFormats) :
    ∃ text s, b.service.marshal format = .ok text ∧ Service.unmarshal text = .ok s ∧
      s.filled = b.service.filled ∧ s.marshal format = .ok text ∧
      ∀ changes stopped, (Compilation.ofBuild changes stopped ⟨s, []⟩).map Compilation.output =
        (Compilation.ofSource changes stopped source).map Compilation.output := by
  have hs := wellFormed_of_ofSource hb
  have hp : b.service.Spelled (isPrintable ·) :=
    spelled_ofSource (by decide) hb fun c hc hne => (hsource c hc).resolve_left hne
  have hcompile : ∀ changes stopped, (Compilation.ofSource changes stopped source).map Compilation.output =
      (Compilation.ofBuild changes stopped b).map Compilation.output := by
    intro changes stopped
    rw [Compilation.ofSource, hb]
    rfl
  rcases List.mem_cons.1 hformat with rfl | hformat
  · refine ⟨b.service.toDocument.toYaml 2, b.service.filled, rfl, unmarshal_toYaml hs hp, b.service.filled_filled, ?_, ?_⟩
    · rw [← b.service.toYaml_filled]
      rfl
    · intro changes stopped
      rw [hcompile]
      exact Compilation.ofBuild_filled changes stopped b.service [] b.warnings
  · obtain rfl := List.mem_singleton.1 hformat
    have hkept : b.service.Spelled (isKept ·) := spelled_ofSource (by decide) hb fun c hc hne =>
      Document.isKept_of_isPrintable ((hsource c hc).resolve_left hne)
    refine ⟨b.service.toDocument.toJson ++ "\n", b.service, rfl, unmarshal_toJson hs hkept, rfl, rfl, ?_⟩
    intro changes stopped
    rw [hcompile, ← Compilation.ofBuild_filled changes stopped b.service [] []]
    exact Compilation.ofBuild_filled changes stopped b.service [] b.warnings

/-- A source with texts that look like something else: a mapping with a comment, a number and nothing.  The
    list of columns is missing. -/
def disguisedTexts : String :=
  "whisper: db type mysql\nwhisper: load environment from 'a: #b'\n" ++
  "whisper: db migration '1e3' with fields \x7b,\x7d\nwhisper: npm install ~"

def disguisedTextsBuild : Build where
  service :=
    { envFile := "a: #b"
      database := { dialect := "mysql" }
      migrations := [{ table := "1e3", fields := none }]
      frontend := some { packages := ["~"] } }

theorem roundTrip_disguisedTexts :
    Build.ofSource disguisedTexts = .ok disguisedTextsBuild ∧
    ∃ text s, disguisedTextsBuild.service.marshal "yaml" = .ok text ∧ Service.unmarshal text = .ok s ∧
      s.filled = disguisedTextsBuild.service.filled ∧ s.marshal "yaml" = .ok text ∧
      ∀ changes stopped, (Compilation.ofBuild changes stopped ⟨s, []⟩).map Compilation.output =
        (Compilation.ofSource changes stopped disguisedTexts).map Compilation.output := by
  have hfacts : disguisedTexts.toList.all (fun c => c == '\n' || isPrintable c) = true ∧
      Build.ofSource disguisedTexts = .ok disguisedTextsBuild := by decide +kernel
  refine ⟨hfacts.2, roundTrip_ofSource ?_ hfacts.2 (by decide)⟩
  intro c hc
  simpa using List.all_eq_true.1 hfacts.1 c hc

/-! ### What the flow form keeps -/

/-- **The flow form is read back.** A service that a source builds is written in the flow form and read back as
    the same service, if the form keeps all the characters of the texts that the source chose: the control
    characters up to the space, which are escaped, and every other one that a document may contain, but for the
    next line and the byte order mark. -/
theorem unmarshal_json_of_kept {source : String} {b : Build} (hb : Build.ofSource source = .ok b)
    (hkept : b.service.Spelled (isKept ·)) :
    ∃ text, b.service.marshal "json" = .ok text ∧ Service.unmarshal text = .ok b.service := by
  have hs := wellFormed_of_ofSource hb
  exact ⟨b.service.toDocument.toJson ++ "\n", rfl, unmarshal_toJson hs hkept⟩

/-- A source with a tabulator, a letter with an accent, a line separator and a picture in its texts. -/
def foreignLetters : String := "whisper: load environment from 'a\té\u2028b'\nwhisper: connect to '😀'"

def foreignLettersBuild : Build where
  service := { envFile := "a\té\u2028b", database := { url := "😀" } }

theorem unmarshal_json_foreignLetters :
    Build.ofSource foreignLetters = .ok foreignLettersBuild ∧ foreignLettersBuild.service.Spelled (isKept ·) ∧
    ∃ text, foreignLettersBuild.service.marshal "json" = .ok text ∧
      Service.unmarshal text = .ok foreignLettersBuild.service := by
  have hb : Build.ofSource foreignLetters = .ok foreignLettersBuild := by decide +kernel
  have hkept : foreignLettersBuild.service.Spelled (isKept ·) := {
    middlewares := by simp [foreignLettersBuild]
    envFile := List.all_eq_true.1 (by decide)
    url := List.all_eq_true.1 (by decide)
    migrations := by simp [foreignLettersBuild]
    bodyFields := by simp [foreignLettersBuild]
    packages := by simp [foreignLettersBuild, Service.client] }
  exact ⟨hb, hkept, unmarshal_json_of_kept hb hkept⟩

/-- The flow form writes the delete character as it is, and no document may contain it. -/
theorem not_unmarshal_json_delete :
    ∃ b text f, Build.ofSource "whisper: load environment from 'a\x7fb'" = .ok b ∧
      b.service.marshal "json" = .ok text ∧ Service.unmarshal text = .error f := by
  let s : Service := { envFile := "a\x7fb" }
  have hrefused : (Service.unmarshal (s.toDocument.toJson ++ "\n")).toBool = false := by decide +kernel
  cases hresult : Service.unmarshal (s.toDocument.toJson ++ "\n") with
  | ok _ =>
    rw [hresult] at hrefused
    exact Bool.noConfusion hrefused
  | error f => exact ⟨{ service := s }, _, f, by decide +kernel, rfl, hresult⟩

end ServiceCompiler
