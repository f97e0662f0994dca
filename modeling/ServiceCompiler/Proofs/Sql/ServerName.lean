import Mathlib.Data.List.TakeWhile
import ServiceCompiler.Proofs.Url.Address
import ServiceCompiler.Sql.Connection

namespace ServiceCompiler

open Text (Octets)
open Text.Octets List

/-!
# Names of servers are read back

The data source name of a SQL Server connection is a URL.  Reading it gives the settings that it was written from.

* `Url.IsWritable` — the parts of a URL that may be written as they are; the user part may be anything.
* `Url.IsWritable.parse?_write` — a writable URL is read back.
* `Url.parameters_of_writeParameters` — so are the parameters of its query.
* `Connection.parse?_sqlServerName` — hence the settings of a connection are found in its name.
-/

namespace Url

/-- An octet that can be seen and that ends no part of a URL in front of the query. -/
structure IsInner (b : UInt8) : Prop where
  visible : 0x20 < b.toNat ∧ b.toNat < 0x7f
  not_slash : isChar '/' b = false
  not_question : isChar '?' b = false
  not_hash : isChar '#' b = false

instance : DecidablePred IsInner := fun b =>
  decidable_of_iff ((0x20 < b.toNat ∧ b.toNat < 0x7f) ∧ isChar '/' b = false ∧ isChar '?' b = false ∧ isChar '#' b = false)
    ⟨fun ⟨hvisible, hslash, hquestion, hhash⟩ => ⟨hvisible, hslash, hquestion, hhash⟩,
      fun h => ⟨h.visible, h.not_slash, h.not_question, h.not_hash⟩⟩

/-- A URL without a path whose parts need no escapes, the user part aside. -/
structure IsWritable (u : Url) : Prop where
  scheme_ne_nil : u.scheme ≠ []
  scheme : u.scheme.all (fun b => 0x61 ≤ b.toNat ∧ b.toNat ≤ 0x7a) = true
  host_plain : ∀ b ∈ u.host, Component.host.escapes b = false
  readHost? : readHost? u.host = some u.host
  path : u.path = []
  query : ∀ b ∈ u.query, (0x20 < b.toNat ∧ b.toNat < 0x7f) ∧ isChar '#' b = false

/-! ### The user part -/

theorem isInner_of_escapes {component : Component} (hslash : component.escapes 0x2f = true)
    (hquestion : component.escapes 0x3f = true) (hhash : component.escapes 0x23 = true) {b : UInt8}
    (h : component.escapes b = false) : IsInner b := by
  have hnot : ∀ {c : Char}, isChar c (ascii c) = true → component.escapes (ascii c) = true → isChar c b = false :=
    fun hc hescapes => hasChar_eq_false_iff.1 (Component.hasChar_of_plain (forall_mem_singleton.2 h) hc hescapes) b
      mem_cons_self
  exact ⟨Component.toNat_of_escapes h, hnot (by decide) hslash, hnot (by decide) hquestion, hnot (by decide) hhash⟩

theorem isInner_of_mem_userInfo {octets : Octets} : ∀ b ∈ Component.userInfo.escape octets, IsInner b :=
  Component.forall_mem_escape (by decide) fun b => isInner_of_escapes (by decide) (by decide) (by decide)

/-- **The user part is read back**, whatever octets it has. -/
theorem readUserInfo?_writeUserInfo (user : UserInfo) : readUserInfo? (writeUserInfo user) = some user := by
  have hfree : Component.userInfo.IsFree := ⟨by decide, by decide⟩
  have hread : ∀ octets, Component.userInfo.unescape? (Component.userInfo.escape octets) = some octets := by
    intro octets
    rw [Component.unescape?, hfree.unescape_escape]
    rfl
  have hall : ∀ octets, (Component.userInfo.escape octets).all isUserInfoOctet = true := fun octets =>
    all_eq_true.2 (Component.forall_mem_escape (by decide) fun b => isUserInfoOctet_of_escapes)
  have hcolon : ∀ octets, hasChar ':' (Component.userInfo.escape octets) = false :=
    Component.hasChar_escape (by decide) (by decide) (by decide)
  obtain ⟨name, password⟩ := user
  cases password with
  | none =>
    have htext : writeUserInfo ⟨name, none⟩ = Component.userInfo.escape name := append_nil _
    rw [htext, readUserInfo?, hall, cutAt?_eq_none_iff.2 (hcolon name)]
    simp [hread]
  | some password =>
    have htext : writeUserInfo ⟨name, some password⟩ =
        Component.userInfo.escape name ++ 0x3a :: Component.userInfo.escape password := rfl
    have hoctet : isUserInfoOctet 0x3a = true := by decide
    rw [htext, readUserInfo?, all_append, all_cons, hall, hall, hoctet, cutAt?_append_cons (hcolon name) (by decide)]
    simp [hread]

/-! ### The parts in front of the query -/

/-- The user part and the host as they are written. -/
def authority (u : Url) : Octets :=
  match u.user with
  | none => u.host
  | some user => writeUserInfo user ++ ascii '@' :: u.host

section

variable {u : Url} (h : u.IsWritable)

include h

theorem IsWritable.write_eq : u.write = u.scheme ++ 0x3a :: 0x2f :: 0x2f :: (u.authority ++ 0x3f :: u.query) := by
  have hmarks : ofString "://" = [0x3a, 0x2f, 0x2f] := rfl
  rw [write, authority, Component.escape_of_plain h.host_plain, hmarks]
  cases u.user <;> simp <;> rfl

theorem IsWritable.isInner_of_mem_host : ∀ b ∈ u.host, IsInner b := fun b hb =>
  isInner_of_escapes (by decide) (by decide) (by decide) (h.host_plain b hb)

theorem IsWritable.isInner_of_mem_authority : ∀ b ∈ u.authority, IsInner b := by
  unfold authority
  split
  · exact h.isInner_of_mem_host
  · rename_i user _
    have hmarks : ∀ b ∈ [0x3a, 0x40], IsInner b := by
      intro b hb
      simp only [mem_cons, not_mem_nil, or_false] at hb
      rcases hb with rfl | rfl <;> exact ⟨by decide, by decide, by decide, by decide⟩
    refine forall_mem_append.2 ⟨forall_mem_append.2 ⟨isInner_of_mem_userInfo, ?_⟩,
      forall_mem_cons.2 ⟨hmarks _ (by decide), h.isInner_of_mem_host⟩⟩
    cases user.password with
    | none => exact fun b hb => absurd hb not_mem_nil
    | some password => exact forall_mem_cons.2 ⟨hmarks _ (by decide), isInner_of_mem_userInfo⟩

theorem IsWritable.readAuthority?_authority : readAuthority? u.authority = some (u.user, u.host) := by
  have hat : hasChar '@' u.host = false := Component.hasChar_of_plain h.host_plain (by decide) (by decide)
  unfold authority
  cases hu : u.user with
  | none =>
    rw [readAuthority?, cutLast?_eq_none_iff.2 hat]
    simp [h.readHost?]
  | some user =>
    rw [readAuthority?, cutLast?_append_cons _ (by decide) hat]
    simp [h.readHost?, readUserInfo?_writeUserInfo]

theorem IsWritable.toNat_of_mem_scheme : ∀ b ∈ u.scheme, 0x61 ≤ b.toNat ∧ b.toNat ≤ 0x7a := by
  simpa using h.scheme

theorem IsWritable.splitScheme?_append (rest : Octets) :
    splitScheme? (u.scheme ++ 0x3a :: rest) = some (u.scheme, rest) := by
  have hletter : ∀ b ∈ u.scheme, isLetter b = true := by
    intro b hb
    have hrange := h.toNat_of_mem_scheme b hb
    simp [isLetter, UInt8.le_iff_toNat_le]
    omega
  obtain ⟨first, scheme, hscheme⟩ := exists_cons_of_ne_nil h.scheme_ne_nil
  have hspan : (u.scheme ++ 0x3a :: rest).span (fun b => isLetter b || isDigit b || isOneOf "+-." b) =
      (u.scheme, 0x3a :: rest) := by
    have hstop : (isLetter 0x3a || isDigit 0x3a || isOneOf "+-." 0x3a) = false := by decide
    rw [span_eq_takeWhile_dropWhile, takeWhile_append_of_pos fun b hb => by rw [hletter b hb]; rfl,
      dropWhile_append_of_pos fun b hb => by rw [hletter b hb]; rfl, takeWhile_cons_of_neg (by simp [hstop]),
      dropWhile_cons_of_neg (by simp [hstop]), append_nil]
  rw [splitScheme?, hspan]
  dsimp only
  rw [if_pos (by decide), hscheme]
  dsimp only
  rw [if_pos (hletter first (by simp [hscheme]))]

theorem IsWritable.readHierarchy? : readHierarchy? u.scheme u.query (0x2f :: 0x2f :: u.authority) = some u := by
  have hempty : u.scheme.isEmpty = false := by simpa using h.scheme_ne_nil
  have hslash : ∀ b ∈ u.authority, (!isChar '/' b) = true := fun b hb => by
    rw [(h.isInner_of_mem_authority b hb).not_slash]
    rfl
  have hpath : Component.path.unescape? [] = some u.path := by rw [h.path]; rfl
  rw [Url.readHierarchy?, hempty, span_eq_takeWhile_dropWhile, takeWhile_eq_self_iff.2 hslash,
    dropWhile_eq_nil_iff.2 hslash]
  simp [h.readAuthority?_authority, hpath]

/-- **A written URL is read back.** -/
theorem IsWritable.parse?_write : parse? u.write = some u := by
  have hscheme : ∀ b ∈ u.scheme, (0x20 < b.toNat ∧ b.toNat < 0x7f) ∧ isChar '#' b = false := by
    intro b hb
    have hrange := h.toNat_of_mem_scheme b hb
    refine ⟨by omega, ?_⟩
    simp [isChar]
    omega
  have hall : ∀ b ∈ u.write, (0x20 < b.toNat ∧ b.toNat < 0x7f) ∧ isChar '#' b = false := by
    rw [h.write_eq]
    refine forall_mem_append.2 ⟨hscheme, forall_mem_cons.2 ⟨by decide, forall_mem_cons.2 ⟨by decide,
      forall_mem_cons.2 ⟨by decide, forall_mem_append.2 ⟨fun b hb => ?_,
      forall_mem_cons.2 ⟨by decide, h.query⟩⟩⟩⟩⟩⟩
    have hinner := h.isInner_of_mem_authority b hb
    exact ⟨hinner.visible, hinner.not_hash⟩
  have hhash : cutAt? '#' u.write = none :=
    cutAt?_eq_none_iff.2 (hasChar_eq_false_iff.2 fun b hb => (hall b hb).2)
  have hcontrol : u.write.any (fun b => b < 0x20 || b == 0x7f) = false := by
    refine any_eq_false.2 fun b hb => ?_
    have hvisible := (hall b hb).1
    simp [UInt8.lt_iff_toNat_lt, ← UInt8.toNat_inj]
    omega
  have hlower : u.scheme.map (fun b => if 0x41 ≤ b && b ≤ 0x5a then b + 0x20 else b) = u.scheme := by
    refine (map_congr_left fun b hb => if_neg ?_).trans (map_id _)
    have hrange := h.toNat_of_mem_scheme b hb
    simp [UInt8.le_iff_toNat_le]
    omega
  have hquestion : cutAt? '?' (0x2f :: 0x2f :: (u.authority ++ 0x3f :: u.query)) =
      some (0x2f :: 0x2f :: u.authority, u.query) := by
    have hfront : hasChar '?' (0x2f :: 0x2f :: u.authority) = false := by
      refine hasChar_eq_false_iff.2 (forall_mem_cons.2 ⟨by decide, forall_mem_cons.2 ⟨by decide, ?_⟩⟩)
      exact fun b hb => (h.isInner_of_mem_authority b hb).not_question
    exact cutAt?_append_cons hfront (by decide) u.query
  have hstar : u.write ≠ [ascii '*'] := by
    rw [h.write_eq]
    intro heq
    have hlength := congrArg length heq
    simp only [length_append, length_cons, length_nil] at hlength
    omega
  have hbody : readBody? u.write = some u := by
    rw [readBody?, hcontrol]
    simp only [Bool.false_eq_true, if_false, if_neg hstar]
    rw [h.write_eq, h.splitScheme?_append]
    simp only [Option.bind_eq_bind, Option.bind_some, hlower, hquestion, Option.getD_some, head?_cons, if_true,
      h.readHierarchy?]
  rw [parse?, hhash]
  simp [hbody]
  rfl

end

/-! ### The query -/

/-- **The parameters of a query are read back.** -/
theorem parameters_of_writeParameters {u : Url} {ps : List (Octets × Octets)} (hne : ps ≠ [])
    (h : u.query = writeParameters ps) : u.parameters = ps := by
  have hread : ∀ octets, Component.query.unescape? (Component.query.escape octets) = some octets := by
    intro octets
    rw [Component.unescape?, Component.IsFree.unescape_escape ⟨by decide, by decide⟩]
    rfl
  have hclean : ∀ {c : Char}, c ∈ ['&', ';', '='] → ∀ octets, hasChar c (Component.query.escape octets) = false := by
    intro c hc
    simp only [mem_cons, not_mem_nil, or_false] at hc
    rcases hc with rfl | rfl | rfl <;> exact Component.hasChar_escape (by decide) (by decide) (by decide)
  have hsplit : splitOn '&' u.query =
      ps.map fun p => Component.query.escape p.1 ++ ascii '=' :: Component.query.escape p.2 := by
    rw [h, writeParameters]
    refine splitOn_intercalate_of_hasChar (by decide) (by simpa using hne) (forall_mem_map.2 fun p _ => ?_)
    simp [hclean]
    decide
  rw [parameters, hsplit, filterMap_map]
  refine (congrArg (filterMap · ps) (funext fun p => ?_)).trans filterMap_some
  have hcut := cutAt?_append_cons (hclean (c := '=') (by simp) p.1) (b := ascii '=') (by decide) (Component.query.escape p.2)
  have hsemicolon : hasChar ';' (Component.query.escape p.1 ++ ascii '=' :: Component.query.escape p.2) = false := by
    simp [hclean]
    decide
  simp [hcut, hsemicolon, hread]

theorem visible_of_mem_writeParameters {ps : List (Octets × Octets)} {b : UInt8} (hb : b ∈ writeParameters ps) :
    (0x20 < b.toNat ∧ b.toNat < 0x7f) ∧ isChar '#' b = false := by
  have hescape : ∀ {octets : Octets}, ∀ b ∈ Component.query.escape octets,
      (0x20 < b.toNat ∧ b.toNat < 0x7f) ∧ isChar '#' b = false := by
    refine Component.forall_mem_escape (by decide) fun b hplain => ?_
    have hinner := isInner_of_escapes (by decide) (by decide) (by decide) hplain
    exact ⟨hinner.visible, hinner.not_hash⟩
  rcases mem_intercalate_singleton hb with rfl | ⟨part, hpart, hb⟩
  · decide
  · obtain ⟨p, -, rfl⟩ := mem_map.1 hpart
    rcases mem_append.1 hb with hb | hb
    · exact hescape b hb
    · rcases mem_cons.1 hb with rfl | hb
      · decide
      · exact hescape b hb

end Url

namespace Connection

def sqlServerUrl (c : Connection) : Url where
  scheme := ofString "sqlserver"
  user := if c.user.isEmpty && c.password.isEmpty then none else some ⟨c.user, some c.password⟩
  host := Url.joinHostPort c.host c.port
  query := Url.writeParameters [(ofString "database", c.database), (ofString "encrypt", ofString "disable")]

theorem sqlServerName_eq (c : Connection) : c.sqlServerName = c.sqlServerUrl.write := rfl

theorem isWritable_sqlServerUrl {c : Connection} (h : Url.IsServer (Url.joinHostPort c.host c.port) c.host c.port) :
    c.sqlServerUrl.IsWritable where
  scheme_ne_nil := show ofString "sqlserver" ≠ [] by decide
  scheme := show (ofString "sqlserver").all (fun b => 0x61 ≤ b.toNat ∧ b.toNat ≤ 0x7a) = true by decide
  host_plain := h.plain
  readHost? := h.readHost?
  path := rfl
  query := fun _ => Url.visible_of_mem_writeParameters

/-- A user part is left out when it has neither a name nor a password, which is also how its absence is read. -/
theorem userName_sqlServerUrl (c : Connection) : c.sqlServerUrl.userName = c.user ∧ c.sqlServerUrl.password = c.password := by
  rw [Url.userName, Url.password, sqlServerUrl]
  cases hempty : c.user.isEmpty && c.password.isEmpty with
  | false => exact ⟨rfl, rfl⟩
  | true =>
    rw [Bool.and_eq_true, List.isEmpty_iff, List.isEmpty_iff] at hempty
    exact ⟨hempty.1.symm, hempty.2.symm⟩

/-- **The settings of a SQL Server connection are found in its name**, whatever octets its user, its password and its
    database have. -/
theorem parse?_sqlServerName {c : Connection} (hhost : Url.IsHost c.host) (hport : ∀ b ∈ c.port, isDigit b = true) :
    ∃ u, Url.parse? c.sqlServerName = some u ∧ u.scheme = ofString "sqlserver" ∧
      u.hostName = c.host ∧ u.port = c.port ∧ u.userName = c.user ∧ u.password = c.password ∧
      u.parameters = [(ofString "database", c.database), (ofString "encrypt", ofString "disable")] := by
  have hserver := hhost.isServer hport
  obtain ⟨huser, hpassword⟩ := userName_sqlServerUrl c
  refine ⟨c.sqlServerUrl, ?_, rfl, ?_, ?_, huser, hpassword, Url.parameters_of_writeParameters (by simp) rfl⟩
  · rw [sqlServerName_eq, (isWritable_sqlServerUrl hserver).parse?_write]
  · rw [Url.hostName, sqlServerUrl, hserver.splitHost]
  · rw [Url.port, sqlServerUrl, hserver.splitHost]

/-- Settings with separators in every text that may have them. -/
def separatorsConnection : Connection where
  user := ofString "a@b:c"
  password := ofString "p/w?x#y% &ä"
  host := ofString "::ffff:10.0.0.255"
  port := ofString "1433"
  database := ofString "d=1&e+f;g"

theorem parse?_sqlServerName_separators :
    Url.IsHost separatorsConnection.host ∧ (∀ b ∈ separatorsConnection.port, isDigit b = true) ∧
      ∃ u, Url.parse? separatorsConnection.sqlServerName = some u ∧ u.scheme = ofString "sqlserver" ∧
        u.hostName = ofString "::ffff:10.0.0.255" ∧ u.port = ofString "1433" ∧ u.userName = ofString "a@b:c" ∧
        u.password = ofString "p/w?x#y% &ä" ∧
        u.parameters = [(ofString "database", ofString "d=1&e+f;g"), (ofString "encrypt", ofString "disable")] := by
  have hgroup : ∀ g ∈ [ofString "ffff"], Url.IsGroup g :=
    List.forall_mem_singleton.2 ⟨by decide, by decide, List.all_eq_true.1 (by decide)⟩
  have hnone : ∀ g ∈ ([] : List Octets), Url.IsGroup g := fun g hg => absurd hg List.not_mem_nil
  have hhost : Url.IsHost separatorsConnection.host :=
    .address (.short hnone (.mixed [ofString "ffff"] hgroup 10 0 0 255) (by decide))
  have hport : ∀ b ∈ separatorsConnection.port, isDigit b = true := List.all_eq_true.1 (by decide)
  exact ⟨hhost, hport, parse?_sqlServerName hhost hport⟩

end Connection

end ServiceCompiler
