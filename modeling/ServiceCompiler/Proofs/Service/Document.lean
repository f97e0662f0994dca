import ServiceCompiler.Proofs.Directive.Spelling
import ServiceCompiler.Proofs.Document.Decode
import ServiceCompiler.Service.Document

namespace ServiceCompiler

open List Service
open Document (Decode Node Writable isKey isFilled isPrintable memberText memberFlag memberList memberTexts)
open Document.Node (Shows)
open Document.Decode (Gives Fills Member gives_pure gives_text gives_number gives_flag gives_list gives_missing gives_record)
open Text (IsMadeOf)

/-!
# Reading the document of a service

The document of a service can be written, and a node that shows it is decoded to the service, up to lists that are
missing.

* `Document.ReadBack` — a document that can be written and what its nodes are decoded to.
* `Document.Part` — some members of a record, with the same facts and the keys they may have.
* `Service.shown` — the service with the missing lists that a format does not tell from empty ones.
* `Service.readBack` — what is decoded.
-/

/-! ### Documents and members -/

namespace Document

/-- The document can be written, and a node that shows it is decoded to the value. -/
structure ReadBack {α : Type} (p : Char → Prop) (listed : Bool) (depth : Nat) (d : Document)
    (decode : Node → Decode α) (a : α) : Prop where
  writable : Writable p depth d
  gives : ∀ n, Shows listed d n → Gives (decode n) a

/-- The members of a record turn one value into another.  They can be written, and their keys are among the given
    ones, in their order. -/
structure Part {α : Type} (p : Char → Prop) (listed : Bool) (depth : Nat) (members : List (Member α))
    (keys : List String) (a : α) (ms : List (String × Document)) (b : α) : Prop where
  keyed : (ms.map (·.1)).Sublist keys
  writable : ∀ m ∈ ms, Writable p depth m.2
  fills : Fills listed members a ms b

variable {α β : Type} {p : Char → Prop} {listed : Bool} {depth : Nat} {members : List (Member α)} {key : String}
  {keys keys' : List String} {a b c : α} {d : Document} {ms ms' : List (String × Document)} {x : β}

theorem Part.append (h : Part p listed depth members keys a ms b) (h' : Part p listed depth members keys' b ms' c) :
    Part p listed depth members (keys ++ keys') a (ms ++ ms') c where
  keyed := by
    rw [map_append]
    exact h.keyed.append h'.keyed
  writable := forall_mem_append.2 ⟨h.writable, h'.writable⟩
  fills := h.fills.append h'.fills

/-- Members that make up a record. -/
theorem readBack_record {type : String} (h : Part p listed depth members keys a ms b)
    (hkeys : keys.Nodup ∧ keys.all isKey = true) :
    ReadBack p listed (depth + 1) (.record ms) (Decode.record type members a) (some b) where
  writable m hm := ⟨all_eq_true.1 hkeys.2 m.1 (h.keyed.subset (mem_map_of_mem hm)), h.writable m hm⟩
  gives _ hn := gives_record type hn (hkeys.1.sublist h.keyed) h.fills

/-- A member whatever its decoder does. -/
theorem part_one {set : α → Node → Decode α} (hkey : members.lookup key = some set)
    (h : ReadBack p listed depth d (set a) b) : Part p listed depth members [key] a [(key, d)] b where
  keyed := .refl _
  writable := forall_mem_singleton.2 h.writable
  fills := .cons hkey h.gives (.nil b)

theorem part_set {decode : α → Node → Decode (Option β)} {set : α → β → α}
    (hkey : members.lookup key = some fun a n => do return ((← decode a n).map (set a)).getD a)
    (h : ReadBack p listed depth d (decode a) (some x)) (hset : set a x = b) :
    Part p listed depth members [key] a [(key, d)] b :=
  part_one hkey ⟨h.writable, fun n hn => hset ▸ (h.gives n hn).bind (gives_pure _)⟩

/-- A member that is left out where it would change nothing. -/
theorem Part.ite {q : Prop} [Decidable q] (h : Part p listed depth members [key] a ms b) (hq : q → a = b) :
    Part p listed depth members [key] a (if q then [] else ms) b := by
  split
  · rename_i hyes
    obtain rfl := hq hyes
    exact ⟨nil_sublist _, nofun, .nil a⟩
  · exact h

/-! ### Values -/

theorem readBack_text (type : String) {s : String} (h : IsMadeOf p s) :
    ReadBack p listed (depth + 1) (.text s) (Decode.text type) (some s) :=
  ⟨h, fun _ hn => gives_text type hn⟩

theorem readBack_flag (f : Bool) : ReadBack p listed (depth + 1) (.flag f) Decode.flag (some f) :=
  ⟨trivial, fun _ hn => gives_flag hn⟩

theorem readBack_number {k : Int} (h : 0 ≤ k ∧ k < Number.signedLimit) :
    ReadBack p listed (depth + 1) (.number k) Decode.number (some k) :=
  ⟨h, fun _ hn => gives_number h hn⟩

theorem readBack_list {values : List β} {shape : β → Document} {decode : Node → Decode (Option β)} (type : String)
    (give : β → β)
    (h : ∀ x ∈ values, isFilled (shape x) = true ∧ ReadBack p listed depth (shape x) decode (some (give x))) :
    ReadBack p listed (depth + 1) (.list (values.map shape)) (Decode.list type decode) (some (some (values.map give))) where
  writable d hd := by
    obtain ⟨x, hx, rfl⟩ := mem_map.1 hd
    exact ⟨(h x hx).1, (h x hx).2.writable⟩
  gives _ hn := gives_list type give hn fun x hx => (h x hx).2.gives

/-- A list whose items are decoded to themselves. -/
theorem readBack_values {values : List β} {shape : β → Document} {decode : Node → Decode (Option β)} (type : String)
    (h : ∀ x ∈ values, isFilled (shape x) = true ∧ ReadBack p listed depth (shape x) decode (some x)) :
    ReadBack p listed (depth + 1) (.list (values.map shape)) (Decode.list type decode) (some (some values)) := by
  have hlist := readBack_list type id h
  rwa [map_id] at hlist

theorem readBack_texts (type : String) {items : List String} (h : ∀ s ∈ items, IsMadeOf p s) :
    ReadBack p listed (depth + 2) (.list (items.map .text)) (Decode.list type (Decode.text "string"))
      (some (some items)) :=
  readBack_values type fun s hs => ⟨rfl, readBack_text _ (h s hs)⟩

/-! ### Members -/

/-- One member in front of others. -/
theorem Part.cons {m : String × Document} (h : Part p listed depth members keys a [m] b)
    (h' : Part p listed depth members keys' b ms c) : Part p listed depth members (keys ++ keys') a (m :: ms) c :=
  h.append h'

theorem part_memberText {s : String} {set : α → String → α}
    (hkey : members.lookup key = some (textMember key set).2) (h : IsMadeOf p s) (hset : set a s = b)
    (hempty : set a "" = a) : Part p listed (depth + 1) members [key] a (memberText key s) b :=
  (part_set hkey (readBack_text "string" h) hset).ite fun hs => by rw [← hset, hs, hempty]

theorem part_memberFlag {f : Bool} {set : α → Bool → α}
    (hkey : members.lookup key = some (flagMember key set).2) (hset : set a f = b) (hempty : set a false = a) :
    Part p listed (depth + 1) members [key] a (memberFlag key f) b := by
  cases f with
  | false =>
    obtain rfl : a = b := by rw [← hset, hempty]
    exact ⟨nil_sublist _, nofun, .nil a⟩
  | true => exact part_set hkey (readBack_flag true) hset

/-- A list that is left out where it is empty. -/
theorem part_memberList {items : List Document} {given : List β} {decode : α → Node → Decode (Option (Option (List β)))}
    {set : α → Option (List β) → α}
    (hkey : members.lookup key = some fun a n => do return ((← decode a n).map (set a)).getD a)
    (h : ReadBack p listed depth (.list items) (decode a) (some (some given))) (hgiven : items = [] → given = [])
    (hset : set a (some given) = b) (hempty : set a (some []) = a) :
    Part p listed depth members [key] a (memberList key items) b :=
  (part_set hkey h hset).ite fun hitems => by rw [← hset, hgiven (isEmpty_iff.1 hitems), hempty]

theorem part_memberTexts {items : List String} {set : α → List String → α}
    (hkey : members.lookup key = some (textsMember key set).2) (h : ∀ s ∈ items, IsMadeOf p s)
    (hset : set a items = b) (hempty : set a [] = a) :
    Part p listed (depth + 2) members [key] a (memberTexts key items) b :=
  part_memberList hkey (readBack_texts "[]string" h) map_eq_nil_iff.1 hset hempty

end Document

/-! ### Texts -/

theorem isPrintable_of_isWordChar {c : Char} (h : Text.isWordChar c) : isPrintable c := by
  rw [Text.isWordChar, Bool.or_eq_true, beq_iff_eq] at h
  rcases h with h | rfl
  · exact Document.isPrintable_of_isAlphanumeric h
  · decide

theorem isPrintable_of_isPlainWord {word : String} (h : IsPlainWord word) : ∀ c ∈ word.toList, isPrintable c :=
  fun c hc => isPrintable_of_isWordChar (h.2 c hc)

theorem isPrintable_of_isRoutePath {path : String} (h : IsRoutePath path) : ∀ c ∈ path.toList, isPrintable c := by
  obtain ⟨cs, hcs, hpath⟩ := h
  intro c hc
  rw [hcs] at hc
  rcases mem_cons.1 hc with rfl | hc
  · decide
  · have hchar := hpath c hc
    rw [isPathChar, Bool.or_eq_true, Bool.or_eq_true, beq_iff_eq, beq_iff_eq] at hchar
    rcases hchar with (hchar | rfl) | rfl
    · exact isPrintable_of_isWordChar hchar
    · decide
    · decide

section Records

open Document Service

variable {p : Char → Prop} {listed : Bool} {depth : Nat}

/-! ### Records -/

theorem readBack_field {f : Field} (type : String) (hname : IsMadeOf p f.name) (htype : IsMadeOf p f.type) :
    ReadBack p listed (depth + 2) f.toDocument (Decode.record type fieldMembers {}) (some f) :=
  readBack_record (.append (.append (.cons (part_set rfl (readBack_text _ hname) rfl)
    (part_set rfl (readBack_text _ htype) rfl)) (part_memberFlag rfl rfl rfl)) (part_memberFlag rfl rfl rfl)) (by decide)

/-- The migration with an empty list of columns in the place of a missing one. -/
def Migration.filled (m : Migration) : Migration := { m with fields := some m.columns }

/-- The migration that is found in a document which lists a missing list as an empty one, or does not. -/
def Migration.shown (listed : Bool) (m : Migration) : Migration := if listed then m.filled else m

theorem readBack_migration {m : Migration} (type : String) (h : m.Spelled p) :
    ReadBack p listed (depth + 4) m.toDocument (Decode.record type migrationMembers {}) (some (m.shown listed)) := by
  obtain ⟨table, fields⟩ := m
  have htable : ReadBack p listed (depth + 3) (.text table) (Decode.text "string") (some table) := readBack_text _ h.table
  cases fields with
  | none =>
    have hmissing : ReadBack p listed (depth + 3) .missingList
        (Decode.list "[]ast.FieldDef" (Decode.record "ast.FieldDef" fieldMembers {})) _ :=
      ⟨trivial, fun n hn => gives_missing _ hn⟩
    exact readBack_record (.cons (part_set rfl htable rfl) (part_set rfl hmissing (by cases listed <;> rfl))) (by decide)
  | some fields =>
    have hfields : ReadBack p listed (depth + 3) (.list (fields.map Field.toDocument))
        (Decode.list "[]ast.FieldDef" (Decode.record "ast.FieldDef" fieldMembers {})) (some (some fields)) :=
      readBack_values _ fun f hf => ⟨rfl, readBack_field _ (h.columns f hf).1 (h.columns f hf).2⟩
    exact readBack_record (.cons (part_set rfl htable rfl) (part_set rfl hfields (by cases listed <;> rfl))) (by decide)

theorem MiddlewareKind.ofName_name {m : Middleware} {p : Char → Prop} (h : m.Spelled p) :
    MiddlewareKind.ofName m.kind.name = m.kind := by
  rcases h.kind with hkind | hkind | hkind | hkind <;> rw [hkind] <;> rfl

theorem Action.ofName_name {r : Route} (h : r.WellFormed) : Action.ofName r.action.name = r.action := by
  rcases h.action with haction | haction | haction <;> rw [haction] <;> rfl

/-- The service that is found in a document which lists missing lists as empty ones, or does not. -/
def Service.shown (listed : Bool) (s : Service) : Service :=
  { s with migrations := s.migrations.map (Migration.shown listed) }

variable (hprint : ∀ c, isPrintable c → p c)
include hprint

theorem isMadeOf_of_all {s : String} (h : s.toList.all isPrintable = true) : IsMadeOf p s :=
  fun c hc => hprint c (all_eq_true.1 h c hc)

theorem readBack_middleware {m : Middleware} (type : String) (h : m.Spelled p) :
    ReadBack p listed (depth + 2) m.toDocument (Decode.record type middlewareMembers {}) (some m) := by
  have hname : IsMadeOf p m.kind.name := by
    apply isMadeOf_of_all hprint
    rcases h.kind with hkind | hkind | hkind | hkind <;> rw [hkind] <;> decide
  have hkind := congrArg (fun kind => ({ kind } : Middleware)) (MiddlewareKind.ofName_name h)
  exact readBack_record (.append (part_set rfl (readBack_text _ hname) hkind) (part_memberText rfl h.arg rfl rfl)) (by decide)

theorem readBack_route {r : Route} (type : String) (h : r.WellFormed) (hbody : ∀ f ∈ r.bodyFields, IsMadeOf p f) :
    ReadBack p listed (depth + 3) r.toDocument (Decode.record type routeMembers {}) (some r) := by
  have hname : IsMadeOf p r.action.name := by
    apply isMadeOf_of_all hprint
    rcases h.action with haction | haction | haction <;> rw [haction] <;> decide
  have hmethod : IsMadeOf p r.method := by
    apply isMadeOf_of_all hprint
    rcases h.action with haction | haction | haction
    · rw [h.get_iff.2 (.inl haction)]
      decide
    · rw [h.get_iff.2 (.inr haction)]
      decide
    · rw [h.post_iff.2 haction]
      decide
  have hpath : IsMadeOf p r.path := fun c hc => hprint c (isPrintable_of_isRoutePath h.path c hc)
  have hcollection : IsMadeOf p r.collection := fun c hc => hprint c (isPrintable_of_isPlainWord h.collection c hc)
  have haction := congrArg (fun action => ({ method := r.method, path := r.path, action } : Route)) (Action.ofName_name h)
  exact readBack_record (.append (.cons (part_set rfl (readBack_text _ hmethod) rfl)
    (.cons (part_set rfl (readBack_text _ hpath) rfl) (.cons (part_set rfl (readBack_text _ hname) haction)
      (part_set rfl (readBack_text _ hcollection) rfl)))) (part_memberTexts rfl hbody rfl rfl)) (by decide)

section Service

variable {s : Service} (hs : s.WellFormed) (hp : s.Spelled p)
include hs

theorem readBack_database (hurl : IsMadeOf p s.database.url) :
    ReadBack p listed (depth + 3) s.database.toDocument (Decode.record "ast.DBConfig" databaseMembers {})
      (some s.database) := by
  have hdialect : IsMadeOf p s.database.dialect := by
    apply isMadeOf_of_all hprint
    rcases hs.dialect with hdialect | hdialect | hdialect <;> rw [hdialect] <;> decide
  exact readBack_record (.append (.append (part_memberText rfl hdialect rfl rfl) (part_memberText rfl hurl rfl rfl))
    (part_memberTexts rfl (fun name hname c hc => hprint c (isPrintable_of_isPlainWord (hs.collections name hname) c hc))
      rfl rfl)) (by decide)

theorem readBack_auth :
    ReadBack p listed (depth + 3) s.auth.toDocument (Decode.record "ast.AuthConfig" authMembers {}) (some s.auth) := by
  have hstrategy : IsMadeOf p s.auth.strategy := by
    apply isMadeOf_of_all hprint
    rcases hs.strategy with hstrategy | hstrategy <;> rw [hstrategy] <;> decide
  exact readBack_record (.append (.append (part_set rfl (readBack_flag _) rfl) (part_memberText rfl hstrategy rfl rfl))
    (part_memberTexts rfl (fun path hpath c hc => hprint c (isPrintable_of_isRoutePath (hs.guarded path hpath) c hc))
      rfl rfl)) (by decide)

include hp

theorem readBack_frontend {f : Frontend} (hf : s.frontend = some f) :
    ReadBack p listed (depth + 3) f.toDocument (decodeFrontend none) (some f) := by
  have hframework : IsMadeOf p f.framework := by
    apply isMadeOf_of_all hprint
    rcases (hs.frontend f hf).framework with hframework | hframework <;> rw [hframework] <;> decide
  have hpackages : ∀ name ∈ f.packages, IsMadeOf p name := by
    have hclient := hp.packages
    rwa [client, hf] at hclient
  have hrecord : ReadBack p listed (depth + 3) f.toDocument
      (Decode.record "ast.FrontendConfig" frontendMembers {}) (some f) :=
    readBack_record (.append (part_memberText rfl hframework rfl rfl) (part_memberTexts rfl hpackages rfl rfl)) (by decide)
  refine ⟨hrecord.writable, fun n hn => ?_⟩
  have hgives := hrecord.gives n hn
  obtain ⟨line, entries, rfl, -⟩ := hn
  exact (gives_pure _).bind (hgives.bind (gives_pure _))

theorem part_frontend : Part p listed 5 members ["frontend"] { s.shown listed with frontend := none }
    (s.frontend.map fun f => ("frontend", f.toDocument)).toList (s.shown listed) := by
  have hsame : ∀ f, s.frontend = f → ({ s.shown listed with frontend := f } : Service) = s.shown listed := by
    rintro f rfl
    rfl
  cases hf : s.frontend with
  | none =>
    rw [hsame none hf]
    exact ⟨nil_sublist _, nofun, .nil _⟩
  | some f =>
    rw [← hsame (some f) hf]
    have hfrontend : ReadBack p listed 5 _ _ _ := readBack_frontend hprint hs hp hf
    exact part_one rfl ⟨hfrontend.writable, fun n hn => (hfrontend.gives n hn).bind (gives_pure _)⟩

/-- **The document of a service** can be written and is decoded to the service, up to missing lists. -/
theorem Service.readBack : ReadBack p listed 6 s.toDocument (decode {}) (s.shown listed) := by
  have hserver : ReadBack p listed 5 (.record [("port", .number s.port)])
      (Decode.record "ast.ServerConfig" [numberMember "port" fun _ n => n] ({} : Service).port) (some s.port) :=
    readBack_record (part_set rfl (readBack_number hs.port) rfl) (by decide)
  have hmiddlewares : ReadBack p listed 5 (.list (s.middlewares.map Middleware.toDocument)) _ _ :=
    readBack_values "[]ast.Middleware" fun m hm => ⟨rfl, readBack_middleware hprint "ast.Middleware" (hp.middlewares m hm)⟩
  have hmigrations : ReadBack p listed 5 (.list (s.migrations.map Migration.toDocument)) _ _ :=
    readBack_list "[]ast.Migration" (Migration.shown listed) fun m hm => ⟨rfl, readBack_migration "ast.Migration" (hp.migrations m hm)⟩
  have hroutes : ReadBack p listed 5 (.list (s.routes.map Route.toDocument)) _ _ :=
    readBack_values "[]ast.RouteDef" fun r hr => ⟨rfl, readBack_route hprint "ast.RouteDef" (hs.routes r hr) (hp.bodyFields r hr)⟩
  have hrecord : ReadBack p listed 6 s.toDocument (Decode.record "ast.AST" members {}) (some (s.shown listed)) := by
    rw [Service.toDocument]
    exact readBack_record (.cons (part_set rfl hserver rfl) (.append (.append (.append (.append (.append (.append
      (part_memberList rfl hmiddlewares (by simp) rfl rfl) (part_memberText rfl hp.envFile rfl rfl))
      (part_set rfl (readBack_database hprint hs hp.url) rfl)) (part_memberList rfl hmigrations (by simp) rfl rfl))
      (part_set rfl (readBack_auth hprint hs) rfl)) (part_memberList rfl hroutes (by simp) rfl rfl))
      (part_frontend hprint hs hp))) (by decide)
  exact ⟨hrecord.writable, fun n hn => (hrecord.gives n hn).bind (gives_pure _)⟩

end Service

end Records

end ServiceCompiler
