import ServiceCompiler.Proofs.Sql.RemovedParameter
import ServiceCompiler.Proofs.Text.Literal
import ServiceCompiler.Proofs.Url.Escape

namespace ServiceCompiler

open Text (Octets)
open Text.Octets Url.Component DataSource Number.Duration
open List hiding splitOn

/-!
# Times are parsed

The data source name of a MySQL connection switches the parsing of times on.  Parameters of the connect URL stand behind
the switch, with names as they were given, so that it is theirs to leave it alone.

* `DataSource.keepsTimes` — a written parameter that does not switch times off and does not end the server part.
* `DataSource.Effect` — what one parameter can do to the settings that are written without escapes, and to the switch.
* `DataSource.isSteady_of_parse` — what is read from a name is written with such parameters only.
* `DataSource.parseTime_of_parse_write` — hence the switch is still on when the name is read.
* `parseTime_of_connection` — in particular for the names that are derived from connect URLs.
-/

namespace DataSource

/-! ### Parameters that leave the switch alone -/

variable {key value : Octets} {t : DataSource}

/-- Whether a parameter switches the parsing of times off. -/
def switchesOff (piece : Octets) : Bool :=
  match cutAt? '=' piece with
  | none => false
  | some (key, value) => key.toText == "parseTime" && readBool? value == some false

/-- Whether a text behind the switch leaves it alone. -/
def keepsTimes (part : Octets) : Bool := !hasChar '/' part && !(splitOn '&' part).any switchesOff

/-- Octets that end neither a parameter nor the server part. -/
def IsPlain (octets : Octets) : Prop := hasChar '/' octets = false ∧ hasChar '&' octets = false

instance (octets : Octets) : Decidable (IsPlain octets) := inferInstanceAs (Decidable (_ ∧ _))

/-- The name of a parameter other than the switch. -/
def IsOtherKey (key : Octets) : Prop := IsPlain key ∧ hasChar '=' key = false ∧ key.toText ≠ "parseTime"

instance (key : Octets) : Decidable (IsOtherKey key) := inferInstanceAs (Decidable (_ ∧ _))

theorem IsPlain.append {a b : Octets} (ha : IsPlain a) (hb : IsPlain b) : IsPlain (a ++ b) :=
  ⟨by rw [hasChar_append, ha.1, hb.1]; rfl, by rw [hasChar_append, ha.2, hb.2]; rfl⟩

theorem IsPlain.of_subset {a b : Octets} (hb : IsPlain b) (h : a ⊆ b) : IsPlain a :=
  ⟨hasChar_eq_false_iff.2 fun x hx => hasChar_eq_false_iff.1 hb.1 x (h hx),
    hasChar_eq_false_iff.2 fun x hx => hasChar_eq_false_iff.1 hb.2 x (h hx)⟩

theorem isPlain_escape (octets : Octets) : IsPlain (query.escape octets) :=
  ⟨hasChar_escape (by decide) (by decide) (by decide) octets,
    hasChar_escape (by decide) (by decide) (by decide) octets⟩

theorem keepsTimes_of_isOtherKey (hkey : IsOtherKey key) (hvalue : IsPlain value) :
    keepsTimes (key ++ ascii '=' :: value) = true := by
  have hequal : IsPlain [ascii '='] := ⟨by decide, by decide⟩
  have hplain : IsPlain (key ++ ascii '=' :: value) := hkey.1.append (hequal.append hvalue)
  rw [keepsTimes, hplain.1, splitOn_of_hasChar hplain.2, any_cons, switchesOff,
    cutAt?_append_cons hkey.2.1 (by decide)]
  simp [hkey.2.2]

/-! ### What is written -/

/-- Whether a character ends neither a parameter nor the server part. -/
def isPlainChar (c : Char) : Bool := c != '/' && c != '&'

theorem isPlain_ofString {s : String} (h : s.toList.all isPlainChar = true) : IsPlain (ofString s) := by
  have hplain := all_eq_true.1 h
  exact ⟨hasChar_ofString (by decide) fun hc => absurd (hplain _ hc) (by decide),
    hasChar_ofString (by decide) fun hc => absurd (hplain _ hc) (by decide)⟩

theorem all_toDigits (n : Nat) : (Nat.toDigits 10 n).all isPlainChar = true := by
  refine all_eq_true.2 fun c hc => ?_
  have hdigit := Nat.isDigit_of_mem_toDigits (by decide) (by decide) hc
  rw [isPlainChar, Bool.and_eq_true, bne_iff_ne, bne_iff_ne]
  constructor <;> rintro rfl <;> cases hdigit

theorem all_fraction (value places : Nat) : (fraction value places).all isPlainChar = true := by
  have hpadded : ∀ c ∈ replicate (places - (Nat.toDigits 10 value).length) '0' ++ Nat.toDigits 10 value,
      isPlainChar c = true := by
    refine forall_mem_append.2 ⟨fun c hc => ?_, all_eq_true.1 (all_toDigits value)⟩
    rw [eq_of_mem_replicate hc]
    rfl
  unfold fraction
  dsimp only
  split
  · rfl
  · refine all_eq_true.2 (forall_mem_cons.2 ⟨rfl, fun c hc => hpadded c ?_⟩)
    exact mem_reverse.1 ((dropWhile_sublist _).subset (mem_reverse.1 hc))

theorem all_magnitude (n : Nat) : (magnitude n).all isPlainChar = true := by
  unfold magnitude withFraction
  dsimp only
  split_ifs <;> simp only [all_append, all_cons, all_toDigits, all_fraction] <;> rfl

theorem isPlain_text {d : Number.Duration} (h : d > 0) : IsPlain (ofString (text d)) := by
  refine isPlain_ofString ?_
  rw [text, String.toList_ofList, if_neg (Int.not_lt.2 (Int.le_of_lt h)), all_magnitude]

theorem isPlain_decimalInt (n : Int) : IsPlain (ofString (Text.decimalInt n)) := by
  have hdecimal : ∀ n, (Text.decimal n).toList.all isPlainChar = true := fun n => by
    rw [Text.decimal, String.toList_ofList, all_toDigits]
  refine isPlain_ofString ?_
  cases n with
  | ofNat n => exact hdecimal n
  | negSucc n =>
    rw [Text.decimalInt, String.toList_append, all_append, hdecimal]
    rfl

/-- The settings that are written as they are leave the switch alone. -/
structure IsSteady (s : DataSource) : Prop where
  charsets : ∀ charset ∈ s.charsets, IsPlain charset
  collation : IsPlain s.collation
  parameters : ∀ p ∈ s.parameters, keepsTimes (p.1 ++ ascii '=' :: query.escape p.2) = true

/-- All of these parameters leave the switch alone. -/
def KeepsAll (parts : List Octets) : Prop := ∀ part ∈ parts, keepsTimes part = true

section

variable {name : String}

theorem keepsAll_nil : KeepsAll [] := fun _ hpart => absurd hpart not_mem_nil

theorem KeepsAll.append {a b : List Octets} (ha : KeepsAll a) (hb : KeepsAll b) : KeepsAll (a ++ b) :=
  forall_mem_append.2 ⟨ha, hb⟩

theorem keepsAll_flag {isWritten value : Bool}
    (h : keepsTimes (ofString (name ++ if value then "=true" else "=false")) = true) :
    KeepsAll (flag name isWritten value) := by
  unfold flag
  split
  · exact forall_mem_singleton.2 h
  · exact keepsAll_nil

theorem keepsAll_named (name : String) (hname : IsOtherKey (ofString name)) (hvalue : IsPlain value) :
    KeepsAll [ofString (name ++ "=") ++ value] := by
  have hequal : ofString (name ++ "=") = ofString name ++ [ascii '='] := Text.Octets.ofString_append name "="
  rw [hequal, append_assoc]
  exact forall_mem_singleton.2 (keepsTimes_of_isOtherKey hname hvalue)

theorem keepsAll_item (hname : IsOtherKey (ofString name)) (hvalue : IsPlain value) : KeepsAll (item name value) := by
  unfold item
  split
  · exact keepsAll_nil
  · exact keepsAll_named name hname hvalue

theorem keepsAll_span (hname : IsOtherKey (ofString name)) (d : Number.Duration) : KeepsAll (span name d) := by
  unfold span
  split
  · rename_i hd
    rw [Text.Octets.ofString_append]
    exact keepsAll_named name hname (isPlain_text hd)
  · exact keepsAll_nil

end

theorem IsSteady.isPlain_charsets {s : DataSource} (h : s.IsSteady) : IsPlain ([ascii ','].intercalate s.charsets) :=
  ⟨hasChar_intercalate (by decide) fun charset hcharset => (h.charsets charset hcharset).1,
    hasChar_intercalate (by decide) fun charset hcharset => (h.charsets charset hcharset).2⟩

/-- **No written parameter moves the switch.** -/
theorem IsSteady.keepsAll {s : DataSource} (h : s.IsSteady) : KeepsAll s.writtenParameters := by
  have hcharsets : KeepsAll (if s.charsets.isEmpty then []
      else [ofString "charset=" ++ [ascii ','].intercalate s.charsets]) := by
    split
    · exact keepsAll_nil
    · exact keepsAll_named "charset" (by decide +kernel) h.isPlain_charsets
  have hlocation : KeepsAll (if s.location.toText = "UTC" then []
      else item "loc" (query.escape s.location)) := by
    split
    · exact keepsAll_nil
    · exact keepsAll_item (by decide +kernel) (isPlain_escape _)
  have hpacket : KeepsAll (if s.maxAllowedPacket = 67108864 then []
      else [ofString ("maxAllowedPacket=" ++ Text.decimalInt s.maxAllowedPacket)]) := by
    split
    · exact keepsAll_nil
    · rw [Text.Octets.ofString_append]
      exact keepsAll_named "maxAllowedPacket" (by decide +kernel) (isPlain_decimalInt _)
  have hparameters : KeepsAll ((s.parameters.mergeSort fun p q => before p.1 q.1).map fun p =>
      p.1 ++ ascii '=' :: query.escape p.2) :=
    forall_mem_map.2 fun p hp => h.parameters p (mem_mergeSort.1 hp)
  unfold writtenParameters
  exact keepsAll_flag (by decide +kernel)
    |>.append (keepsAll_flag (by decide +kernel))
    |>.append (keepsAll_flag (by decide +kernel))
    |>.append (keepsAll_flag (by decide +kernel))
    |>.append (keepsAll_flag (by decide +kernel))
    |>.append (keepsAll_flag (by decide +kernel))
    |>.append (keepsAll_flag (by decide +kernel))
    |>.append hcharsets
    |>.append (keepsAll_item (by decide +kernel) h.collation)
    |>.append (keepsAll_flag (by decide +kernel))
    |>.append (keepsAll_item (by decide +kernel) (isPlain_escape _))
    |>.append (keepsAll_flag (by decide +kernel))
    |>.append (keepsAll_flag (by decide +kernel))
    |>.append hlocation
    |>.append (keepsAll_flag (by decide +kernel))
    |>.append (keepsAll_flag (by decide +kernel))
    |>.append (keepsAll_span (by decide +kernel) _)
    |>.append (keepsAll_span (by decide +kernel) _)
    |>.append (keepsAll_flag (by decide +kernel))
    |>.append (keepsAll_item (by decide +kernel) (isPlain_escape _))
    |>.append (keepsAll_span (by decide +kernel) _)
    |>.append (keepsAll_item (by decide +kernel) (isPlain_escape _))
    |>.append (keepsAll_span (by decide +kernel) _)
    |>.append hpacket
    |>.append hparameters

/-! ### What is read -/

/-- What one parameter can do to the switch, and to the settings that are written as they are. -/
structure Effect (s : DataSource) (key value : Octets) (t : DataSource) : Prop where
  parseTime : t.parseTime = s.parseTime ∨ key.toText = "parseTime" ∧ readBool? value = some t.parseTime
  charsets : t.charsets = s.charsets ∨ t.charsets = splitOn ',' value
  collation : t.collation = s.collation ∨ t.collation = value
  parameters : t.parameters = s.parameters ∨
    key.toText ≠ "parseTime" ∧ ∃ v, t.parameters = setParameter s.parameters key v

theorem readBool?_of_readBool {b : Bool} (h : readBool value = .ok b) : readBool? value = some b := by
  unfold readBool at h
  split at h
  · rename_i heq
    exact heq.trans (congrArg some (Except.ok.inj h))
  · cases h

theorem effect_of_readParameter {s : DataSource} (h : s.readParameter key value = .ok t) : Effect s key value t := by
  unfold readParameter at h
  split at h
  case h_8 =>
    cases h
    exact ⟨.inl rfl, .inr rfl, .inl rfl, .inl rfl⟩
  case h_9 =>
    cases h
    exact ⟨.inl rfl, .inl rfl, .inr rfl, .inl rfl⟩
  case h_15 hkey =>
    obtain ⟨b, hb, ht⟩ := exists_ok_of_bind h
    cases ht
    exact ⟨.inr ⟨hkey, readBool?_of_readBool hb⟩, .inl rfl, .inl rfl, .inl rfl⟩
  case h_20 => cases h
  case h_26 =>
    obtain ⟨v, -, ht⟩ := exists_ok_of_bind h
    cases ht
    exact ⟨.inl rfl, .inl rfl, .inl rfl, .inr ⟨by assumption, v, rfl⟩⟩
  all_goals
    obtain ⟨_, -, ht⟩ := exists_ok_of_bind h
    cases ht
    exact ⟨.inl rfl, .inl rfl, .inl rfl, .inl rfl⟩

theorem mem_setParameter {ps : List (Octets × Octets)} {p : Octets × Octets} (h : p ∈ setParameter ps key value) :
    p = (key, value) ∨ p ∈ ps := by
  unfold setParameter at h
  split at h
  · obtain ⟨q, hq, rfl⟩ := mem_map.1 h
    split
    · exact .inl rfl
    · exact .inr hq
  · rcases mem_append.1 h with hp | hp
    · exact .inr hp
    · exact .inl (mem_singleton.1 hp)

theorem IsSteady.readPart {s : DataSource} (hs : s.IsSteady) {part : Octets} (hpart : IsPlain part)
    (h : s.readPart part = .ok t) : t.IsSteady := by
  unfold DataSource.readPart at h
  cases hcut : cutAt? '=' part with
  | none =>
    rw [hcut] at h
    cases h
    exact hs
  | some parts =>
    obtain ⟨key, value⟩ := parts
    rw [hcut] at h
    have heffect := effect_of_readParameter h
    obtain ⟨hequal, b, -, rfl⟩ := cutAt?_eq_some_iff.1 hcut
    have hkey : IsPlain key := hpart.of_subset (subset_append_left _ _)
    have hvalue : IsPlain value :=
      hpart.of_subset (Subset.trans (subset_cons_self b value) (subset_append_right _ _))
    refine ⟨?_, ?_, ?_⟩
    · rcases heffect.charsets with heq | heq
      · exact heq ▸ hs.charsets
      · rw [heq]
        exact fun charset hcharset => hvalue.of_subset fun x hx => (mem_of_mem_splitOn hcharset hx).1
    · rcases heffect.collation with heq | heq
      · exact heq ▸ hs.collation
      · exact heq ▸ hvalue
    · rcases heffect.parameters with heq | ⟨hother, v, heq⟩
      · exact heq ▸ hs.parameters
      · intro p hp
        rcases mem_setParameter (heq ▸ hp) with rfl | hp
        · exact keepsTimes_of_isOtherKey ⟨hkey, hequal, hother⟩ (isPlain_escape v)
        · exact hs.parameters p hp

/-- The server part and what is filled in at the end have no part in this. -/
structure Agrees (s t : DataSource) : Prop where
  parseTime : t.parseTime = s.parseTime
  charsets : t.charsets = s.charsets
  collation : t.collation = s.collation
  parameters : t.parameters = s.parameters

theorem IsSteady.of_agrees {s : DataSource} (hs : s.IsSteady) (h : Agrees s t) : t.IsSteady :=
  ⟨h.charsets ▸ hs.charsets, h.collation ▸ hs.collation, h.parameters ▸ hs.parameters⟩

/-- A step whose result, if there is one, agrees with the settings. -/
def Passes (s : DataSource) (x : Except DataSourceError DataSource) : Prop := ∀ t, x = .ok t → Agrees s t

section

variable {s : DataSource}

theorem Passes.ok (h : Agrees s t) : Passes s (.ok t) := by
  rintro _ ⟨⟩
  exact h

theorem Passes.error (e : DataSourceError) : Passes s (.error e) := by
  intro t h
  cases h

theorem Passes.ite {p : Prop} [Decidable p] {x y : Except DataSourceError DataSource} (hx : Passes s x)
    (hy : Passes s y) : Passes s (if p then x else y) := by
  split
  · exact hx
  · exact hy

theorem Passes.bind {α : Type} {x : Except DataSourceError α} {f : α → Except DataSourceError DataSource}
    (hf : ∀ a, Passes s (f a)) : Passes s (x >>= f) := by
  intro t h
  obtain ⟨a, -, ha⟩ := exists_ok_of_bind h
  exact hf a t ha

end

theorem passes_readServer (s : DataSource) (text : Octets) : Passes s (s.readServer text) := by
  unfold readServer
  dsimp only
  split
  · exact Passes.ok (by split <;> exact ⟨rfl, rfl, rfl, rfl⟩)
  · exact Passes.ite (Passes.ok (by split <;> exact ⟨rfl, rfl, rfl, rfl⟩))
      (Passes.ite (Passes.error _) (Passes.error _))

theorem passes_complete (s : DataSource) : Passes s s.complete := by
  unfold complete
  dsimp only
  refine Passes.ite (Passes.ite ?_ (Passes.ite ?_ ?_)) (Passes.ite ?_ ?_)
  case refine_3 => exact Passes.error _
  all_goals
    refine Passes.bind fun address => Passes.ite (Passes.error _) (Passes.ite (Passes.error _) (Passes.ok ?_))
    split <;> exact ⟨rfl, rfl, rfl, rfl⟩

theorem passes_finish (s : DataSource) (database : Octets) : Passes s (s.finish database) := by
  refine Passes.bind fun database t h => ?_
  have hagrees := passes_complete _ t h
  exact ⟨hagrees.parseTime, hagrees.charsets, hagrees.collation, hagrees.parameters⟩

theorem passes_ofServer (server : Octets) : Passes {} (ofServer server) :=
  Passes.ite (Passes.ok ⟨rfl, rfl, rfl, rfl⟩) (passes_readServer {} server)

theorem isSteady_default : IsSteady {} :=
  ⟨fun _ h => absurd h not_mem_nil, ⟨rfl, rfl⟩, fun _ h => absurd h not_mem_nil⟩

/-- What each parameter keeps holds behind all of them. -/
theorem of_foldlM_readPart {P : DataSource → Prop} {pieces : List Octets}
    (hstep : ∀ piece ∈ pieces, ∀ {s t : DataSource}, P s → s.readPart piece = .ok t → P t) {s : DataSource}
    (hs : P s) (h : pieces.foldlM readPart s = .ok t) : P t := by
  induction pieces generalizing s with
  | nil =>
    cases h
    exact hs
  | cons piece pieces ih =>
    rw [foldlM_cons] at h
    obtain ⟨u, hu, hrest⟩ := exists_ok_of_bind h
    obtain ⟨hpiece, hpieces⟩ := forall_mem_cons.1 hstep
    exact ih hpieces (hpiece hs hu) hrest

/-- **What is read from a name leaves the switch alone when it is written.** -/
theorem isSteady_of_parse {name : Octets} {s : DataSource} (h : parse name = .ok s) : s.IsSteady := by
  cases hslash : cutLast? '/' name with
  | none =>
    unfold parse at h
    rw [hslash] at h
    dsimp only at h
    split at h
    · exact isSteady_default.of_agrees (passes_complete {} s h)
    · cases h
  | some parts =>
    obtain ⟨server, rest⟩ := parts
    cases hmark : cutAt? '?' rest with
    | none =>
      rw [parse_eq_finish hslash hmark] at h
      obtain ⟨u, hu, hfinish⟩ := exists_ok_of_bind h
      exact (isSteady_default.of_agrees (passes_ofServer server u hu)).of_agrees (passes_finish u rest s hfinish)
    | some parts =>
      obtain ⟨database, text⟩ := parts
      rw [parse_eq_readParameters hslash hmark] at h
      obtain ⟨u, hu, h⟩ := exists_ok_of_bind h
      obtain ⟨v, hv, hfinish⟩ := exists_ok_of_bind h
      -- Nothing behind the last slash has a slash, and no piece has the separator of pieces.
      have hpieces : ∀ piece ∈ splitOn '&' text, IsPlain piece := by
        intro piece hpiece
        obtain ⟨hrest, -⟩ := cutLast?_eq_some_iff.1 hslash
        obtain ⟨-, b, -, rfl⟩ := cutAt?_eq_some_iff.1 hmark
        refine ⟨hasChar_eq_false_iff.2 fun x hx => hasChar_eq_false_iff.1 hrest x ?_,
          hasChar_eq_false_iff.2 fun x hx => (mem_of_mem_splitOn hpiece hx).2⟩
        exact mem_append_right _ (mem_cons_of_mem _ (mem_of_mem_splitOn hpiece hx).1)
      rw [readParameters_eq_foldlM] at hv
      have hsteady : v.IsSteady :=
        of_foldlM_readPart (fun piece hpiece _ _ hs => hs.readPart (hpieces piece hpiece))
          (isSteady_default.of_agrees (passes_ofServer server u hu)) hv
      exact hsteady.of_agrees (passes_finish v database s hfinish)

/-! ### The switch -/

theorem parseTime_of_readPart {s : DataSource} {piece : Octets} (hpiece : switchesOff piece = false)
    (hs : s.parseTime = true) (h : s.readPart piece = .ok t) : t.parseTime = true := by
  unfold readPart at h
  unfold switchesOff at hpiece
  cases hcut : cutAt? '=' piece with
  | none =>
    rw [hcut] at h
    cases h
    exact hs
  | some parts =>
    obtain ⟨key, value⟩ := parts
    rw [hcut] at h hpiece
    rcases (effect_of_readParameter h).parseTime with heq | ⟨hkey, hvalue⟩
    · exact heq.trans hs
    · cases ht : t.parseTime with
      | true => rfl
      | false =>
        rw [ht] at hvalue
        simp [hkey, hvalue] at hpiece

theorem readPart_parseTime (s : DataSource) : s.readPart (ofString "parseTime=true") = .ok { s with parseTime := true } := by
  have hcut : cutAt? '=' (ofString "parseTime=true") = some (ofString "parseTime", ofString "true") := by decide +kernel
  have hkey : (ofString "parseTime").toText = "parseTime" := by decide +kernel
  have hvalue : readBool (ofString "true") = .ok true := by decide +kernel
  unfold readPart
  rw [hcut]
  unfold readParameter
  dsimp only
  rw [hkey, hvalue]
  rfl

/-- The text of a name whose parameters are not all at their defaults. -/
theorem exists_write_eq {s : DataSource} (h : s.writtenParameters ≠ []) :
    ∃ server, s.write = server ++ ascii '/' :: (pathSegment.escape s.database ++
      ascii '?' :: [ascii '&'].intercalate s.writtenParameters) := by
  unfold write
  cases hwritten : s.writtenParameters with
  | nil => exact absurd hwritten h
  | cons part parts => exact ⟨_, append_assoc _ _ _⟩

theorem mem_writtenParameters {s : DataSource} (h : s.parseTime = true) :
    ofString "parseTime=true" ∈ s.writtenParameters := by
  have hflag : ofString "parseTime=true" ∈ flag "parseTime" s.parseTime true := by
    rw [h]
    exact mem_singleton.2 rfl
  -- Nine groups of parameters follow the switch.
  unfold writtenParameters
  iterate 9 apply mem_append_left
  exact mem_append_right _ hflag

/-- **The switch is on in what is read from a written name.** -/
theorem parseTime_of_parse_write {s : DataSource} (hs : s.IsSteady) (hon : s.parseTime = true)
    (h : parse s.write = .ok t) : t.parseTime = true := by
  have hswitch := mem_writtenParameters hon
  have hne : s.writtenParameters ≠ [] := ne_nil_of_mem hswitch
  have hkeeps : ∀ part ∈ s.writtenParameters, hasChar '/' part = false ∧
      ∀ piece ∈ splitOn '&' part, switchesOff piece = false := by
    intro part hpart
    simpa [keepsTimes] using hs.keepsAll part hpart
  obtain ⟨server, hwrite⟩ := exists_write_eq hne
  have hrest : hasChar '/' (pathSegment.escape s.database ++
      ascii '?' :: [ascii '&'].intercalate s.writtenParameters) = false := by
    rw [hasChar_append, hasChar_cons, hasChar_escape (by decide) (by decide) (by decide),
      hasChar_intercalate (by decide) fun part hpart => (hkeeps part hpart).1]
    decide
  have hdatabase : hasChar '?' (pathSegment.escape s.database) = false :=
    hasChar_escape (by decide) (by decide) (by decide) _
  rw [hwrite, parse_eq_readParameters (cutLast?_append_cons server (by decide) hrest)
    (cutAt?_append_cons hdatabase (by decide) _)] at h
  obtain ⟨u, -, h⟩ := exists_ok_of_bind h
  obtain ⟨v, hv, hfinish⟩ := exists_ok_of_bind h
  rw [readParameters_eq_foldlM, Text.Octets.splitOn_intercalate (by decide) hne] at hv
  have hpieces : ∀ piece ∈ s.writtenParameters.flatMap (splitOn '&'), switchesOff piece = false := by
    intro piece hpiece
    obtain ⟨part, hpart, hpiece⟩ := mem_flatMap.1 hpiece
    exact (hkeeps part hpart).2 piece hpiece
  have hmem : ofString "parseTime=true" ∈ s.writtenParameters.flatMap (splitOn '&') :=
    mem_flatMap.2 ⟨_, hswitch, by decide⟩
  obtain ⟨front, back, hsplit⟩ := append_of_mem hmem
  rw [hsplit, foldlM_append] at hv
  obtain ⟨w, -, hback⟩ := exists_ok_of_bind hv
  rw [foldlM_cons, readPart_parseTime] at hback
  have hbackPieces : ∀ piece ∈ back, switchesOff piece = false := fun piece hpiece =>
    hpieces piece (hsplit ▸ mem_append_right _ (mem_cons_of_mem _ hpiece))
  rw [(passes_finish v _ t hfinish).parseTime]
  refine of_foldlM_readPart (P := (·.parseTime = true)) (fun piece hpiece _ _ => ?_) rfl hback
  exact parseTime_of_readPart (hbackPieces piece hpiece)

end DataSource

/-! ### Connect URLs -/

/-- A connect URL that is read as one of MySQL. -/
def mysqlUrl? (raw : String) : Option Url := (Url.parse? (ofString raw)).filter (·.scheme = ofString "mysql")

/-- Whether the parameters of a URL, as they are written, leave the parsing of times alone. -/
def Url.keepsTimes (u : Url) : Bool :=
  u.firstParameters.all fun p => DataSource.keepsTimes (p.1 ++ ascii '=' :: Component.query.escape p.2)

theorem isSteady_ofUrl {u : Url} (h : u.keepsTimes = true) : (ofUrl u).IsSteady where
  charsets := fun _ hcharset => absurd hcharset not_mem_nil
  collation := ⟨rfl, rfl⟩
  parameters := all_eq_true.1 h

theorem connection_of_mysqlName {raw : String} {dsn : Octets} (h : mysqlName raw = .ok dsn) :
    Engine.mysql.connection raw = .ok { dsn } := by
  show (mysqlName raw).map _ = _
  rw [h]
  rfl

theorem isEmpty_ofString {raw : String} (h : raw ≠ "") : (ofString raw).isEmpty = false := by
  rw [Bool.eq_false_iff]
  intro hempty
  rw [List.isEmpty_iff, ofString_eq_toByteArray] at hempty
  exact h (String.toByteArray_inj.1 (ByteArray.ext (Array.toList_inj.1 hempty)))

/-- The name for a connect URL, and whatever it is written from leaves the switch alone. -/
theorem exists_isSteady_of_read {raw : String} (hne : raw ≠ "")
    (hread : (∃ u, mysqlUrl? raw = some u) ∨ ∃ s, parse (ofString raw) = .ok s)
    (hkeeps : ∀ u, mysqlUrl? raw = some u → u.keepsTimes = true) :
    ∃ s : DataSource, mysqlName raw = .ok s.write ∧ s.IsSteady ∧ s.parseTime = true := by
  have hempty : ¬ (ofString raw).isEmpty = true := by simp [isEmpty_ofString hne]
  unfold mysqlName
  rw [if_neg hempty]
  cases hurl : mysqlUrl? raw with
  | some u =>
    unfold mysqlUrl? at hurl
    rw [hurl]
    exact ⟨ofUrl u, rfl, isSteady_ofUrl (hkeeps u hurl), rfl⟩
  | none =>
    rw [hurl] at hread
    obtain ⟨source, hsource⟩ := hread.resolve_left nofun
    unfold mysqlUrl? at hurl
    rw [hurl, hsource]
    have hsteady := isSteady_of_parse hsource
    exact ⟨{ source with parseTime := true }, rfl, ⟨hsteady.charsets, hsteady.collation, hsteady.parameters⟩, rfl⟩

/-- **Times are parsed in every connection** whose connect URL is not empty and, if it is a URL, has no parameter that
    says otherwise. -/
theorem parseTime_of_connection {raw : String} (hne : raw ≠ "")
    (hread : (∃ u, mysqlUrl? raw = some u) ∨ ∃ s, DataSource.parse (ofString raw) = .ok s)
    (hkeeps : ∀ u, mysqlUrl? raw = some u → u.keepsTimes = true) :
    ∃ c, Engine.mysql.connection raw = .ok c ∧ ∀ s, DataSource.parse c.dsn = .ok s → s.parseTime = true := by
  obtain ⟨source, hname, hsteady, hon⟩ := exists_isSteady_of_read hne hread hkeeps
  refine ⟨{ dsn := source.write }, connection_of_mysqlName hname, fun s hs => ?_⟩
  exact DataSource.parseTime_of_parse_write hsteady hon (show DataSource.parse source.write = .ok s from hs)

/-- The name of a parameter may hold a separator and ask for parsed times itself. -/
theorem parseTime_of_connection_separator :
    ∃ u c s, mysqlUrl? "mysql://u:p@h/db?a%26parseTime=1" = some u ∧ u.keepsTimes = true ∧
      Engine.mysql.connection "mysql://u:p@h/db?a%26parseTime=1" = .ok c ∧ DataSource.parse c.dsn = .ok s ∧
      s.parseTime = true := by
  have hurl : (mysqlUrl? "mysql://u:p@h/db?a%26parseTime=1").any (·.keepsTimes) = true := by decide +kernel
  have hparse : (Engine.mysql.connection "mysql://u:p@h/db?a%26parseTime=1" >>= fun c => DataSource.parse c.dsn).toBool =
      true := by decide +kernel
  obtain ⟨u, hu, hkeeps⟩ := (Option.any_eq_true _ _).1 hurl
  obtain ⟨c, hc, htimes⟩ := parseTime_of_connection (by decide) (.inl ⟨u, hu⟩) fun v hv => by
    rw [← Option.some.inj (hu.symm.trans hv), hkeeps]
  rw [hc] at hparse
  change (DataSource.parse c.dsn).toBool = true at hparse
  cases hs : DataSource.parse c.dsn with
  | error e =>
    rw [hs] at hparse
    cases hparse
  | ok s => exact ⟨u, c, s, hu, hkeeps, hc, hs, htimes s hs⟩

/-- The empty connect URL is kept, and has its times not parsed; so have URLs whose parameters, as they are written,
    switch it off again or move the slash in front of the parameters. -/
theorem not_parseTime_empty_off_slash :
    (DataSource.parse (ofString "")).toBool = true ∧
      (mysqlUrl? "mysql://u:p@h/db?parseTime=false").isSome = true ∧ (mysqlUrl? "mysql://u:p@h/db?a)/b=1").isSome = true ∧
      ∀ raw ∈ ["", "mysql://u:p@h/db?parseTime=false", "mysql://u:p@h/db?a)/b=1"],
        (Engine.mysql.connection raw >>= fun c => DataSource.parse c.dsn).map (·.parseTime) = .ok false := by
  decide +kernel

end ServiceCompiler
