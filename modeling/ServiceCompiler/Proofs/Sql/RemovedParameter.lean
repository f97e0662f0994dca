import ServiceCompiler.Proofs.Effect
import ServiceCompiler.Sql.Connection

namespace ServiceCompiler

open Text (Octets)
open Text.Octets

/-!
# When the reader of data source names gives up

Connection settings are derived without a failure, with one exception: the reader of data source names gives up
altogether at one parameter.

* `GoesOn` — a step of the reader that may fail, but does not give up.  All steps are of this kind
  (`readParameter_goesOn`, `readServer_goesOn`, `complete_goesOn`) but for the one at the removed parameter.
* `DataSource.ReachesRemoved` — the parameter is there, and what stands in front of it can be read.
* `parse_eq_removed_iff` — this is the exact condition.
* `connection_eq_error_iff` — hence the connect URLs for which there are no settings.
-/

/-- The first failure of a fold has a place: what stands in front of it goes through. -/
theorem foldlM_eq_error_iff {ε σ α : Type} {f : σ → α → Except ε σ} {xs : List α} {s : σ} {e : ε} :
    xs.foldlM f s = .error e ↔
      ∃ front x back t, xs = front ++ x :: back ∧ front.foldlM f s = .ok t ∧ f t x = .error e := by
  induction xs generalizing s with
  | nil => simp [pure, Except.pure]
  | cons x xs ih =>
    rw [List.foldlM_cons]
    cases hx : f s x with
    | error e' =>
      constructor
      · rintro ⟨⟩
        exact ⟨[], x, xs, s, rfl, rfl, hx⟩
      · rintro ⟨front, y, back, t, hxs, hfront, hy⟩
        cases front with
        | nil =>
          obtain ⟨rfl, -⟩ := List.cons.inj hxs
          cases hfront
          exact hx.symm.trans hy
        | cons z front =>
          obtain ⟨rfl, -⟩ := List.cons.inj hxs
          rw [List.foldlM_cons, hx] at hfront
          cases hfront
    | ok s' =>
      refine Iff.trans ih ⟨?_, ?_⟩
      · rintro ⟨front, y, back, t, rfl, hfront, hy⟩
        exact ⟨x :: front, y, back, t, rfl, by rw [List.foldlM_cons, hx]; exact hfront, hy⟩
      · rintro ⟨front, y, back, t, hxs, hfront, hy⟩
        cases front with
        | nil =>
          obtain ⟨rfl, -⟩ := List.cons.inj hxs
          cases hfront
          rw [hx] at hy
          cases hy
        | cons z front =>
          obtain ⟨rfl, rfl⟩ := List.cons.inj hxs
          rw [List.foldlM_cons, hx] at hfront
          exact ⟨front, y, back, t, rfl, hfront, hy⟩

namespace DataSource

/-! ### Steps that go on -/

variable {s : DataSource} {name : Octets} (value : Octets)

/-- A step that may fail but does not give up. -/
def GoesOn {α : Type} (x : Except DataSourceError α) : Prop := x ≠ .error .removedParameter

theorem GoesOn.ok {α : Type} (a : α) : GoesOn (.ok a) := nofun

theorem GoesOn.error {α : Type} {e : DataSourceError} (h : e ≠ .removedParameter) :
    GoesOn (.error e : Except DataSourceError α) :=
  fun heq => h (Except.error.inj heq)

theorem GoesOn.bind {α β : Type} {x : Except DataSourceError α} {f : α → Except DataSourceError β} (hx : GoesOn x)
    (hf : ∀ a, GoesOn (f a)) : GoesOn (x >>= f) := by
  cases x with
  | error e => exact GoesOn.error fun h => hx (congrArg _ h)
  | ok a => exact hf a

theorem GoesOn.mapError {ε α : Type} (wrap : ε → DataSourceError) (h : ∀ e, wrap e ≠ .removedParameter)
    (x : Except ε α) : GoesOn (x.mapError wrap) := by
  cases x with
  | error e => exact GoesOn.error (h e)
  | ok a => exact GoesOn.ok a

theorem GoesOn.ite {α : Type} {p : Prop} [Decidable p] {x y : Except DataSourceError α} (hx : GoesOn x)
    (hy : GoesOn y) : GoesOn (if p then x else y) := by
  split
  · exact hx
  · exact hy

theorem readBool_goesOn : GoesOn (readBool value) := by
  unfold readBool
  split
  · exact GoesOn.ok _
  · exact GoesOn.error nofun

theorem readText_goesOn (wrap : Octets → DataSourceError) (h : ∀ e, wrap e ≠ .removedParameter) (value : Octets) :
    GoesOn (readText wrap value) :=
  GoesOn.mapError _ h _

theorem readDuration_goesOn (wrap : Octets → Number.Duration.Error → DataSourceError)
    (h : ∀ v e, wrap v e ≠ .removedParameter) (value : Octets) : GoesOn (readDuration wrap value) :=
  GoesOn.mapError _ (h value) _

theorem readInteger_goesOn : GoesOn (readInteger value) := by
  unfold readInteger
  -- The sign and the digits, and then whether these are a number.
  split
  split
  · exact GoesOn.error nofun
  · exact GoesOn.ite (GoesOn.ok _) (GoesOn.error nofun)

theorem readLocation_goesOn : GoesOn (readLocation value) := by
  refine (readText_goesOn .badEscape (fun _ => nofun) value).bind fun name => ?_
  exact (GoesOn.mapError .badLocation (fun _ => nofun) _).bind fun _ => GoesOn.ok _

theorem readTls_goesOn : GoesOn (readTls value) := by
  unfold readTls
  split
  · exact GoesOn.ok _
  · exact GoesOn.ite (GoesOn.ok _) (readText_goesOn .badTlsName (fun _ => nofun) value)

/-- **Parameters are read or refused**, with one exception. -/
theorem readParameter_goesOn {key : Octets} (hkey : key.toText ≠ "strict") (value : Octets) :
    GoesOn (s.readParameter key value) := by
  have hbool := readBool_goesOn value
  have hduration := readDuration_goesOn .badDuration (fun _ _ => nofun) value
  unfold readParameter
  split
  case h_8 => exact GoesOn.ok _
  case h_9 => exact GoesOn.ok _
  case h_13 => exact (readLocation_goesOn value).bind fun _ => GoesOn.ok _
  case h_16 => exact (readDuration_goesOn .badTruncation (fun _ _ => nofun) value).bind fun _ => GoesOn.ok _
  case h_17 => exact hduration.bind fun _ => GoesOn.ok _
  case h_19 => exact (readText_goesOn .badPublicKeyName (fun _ => nofun) value).bind fun _ => GoesOn.ok _
  case h_20 heq => exact absurd heq hkey
  case h_21 => exact hduration.bind fun _ => GoesOn.ok _
  case h_22 => exact (readTls_goesOn value).bind fun _ => GoesOn.ok _
  case h_23 => exact hduration.bind fun _ => GoesOn.ok _
  case h_24 => exact (readInteger_goesOn value).bind fun _ => GoesOn.ok _
  case h_25 => exact (readText_goesOn .badAttributes (fun _ => nofun) value).bind fun _ => GoesOn.ok _
  case h_26 => exact (readText_goesOn .badEscape (fun _ => nofun) value).bind fun _ => GoesOn.ok _
  all_goals exact hbool.bind fun _ => GoesOn.ok _

theorem readParameter_strict {key : Octets} (hkey : key.toText = "strict") (value : Octets) :
    s.readParameter key value = .error .removedParameter := by
  unfold readParameter
  rw [hkey]
  rfl

theorem readServer_goesOn (s : DataSource) (text : Octets) : GoesOn (s.readServer text) := by
  unfold readServer
  dsimp only
  split
  · exact GoesOn.ok _
  · exact GoesOn.ite (GoesOn.ok _) (GoesOn.ite (GoesOn.error nofun) (GoesOn.error nofun))

theorem complete_goesOn (s : DataSource) : GoesOn s.complete := by
  unfold complete
  dsimp only
  -- The address is filled in or refused; what follows it is the same in all cases.
  refine GoesOn.ite (GoesOn.ite ?_ (GoesOn.ite ?_ ?_)) (GoesOn.ite ?_ ?_)
  case refine_3 => exact GoesOn.error nofun
  all_goals
    refine GoesOn.bind (GoesOn.ok _) fun address => ?_
    exact GoesOn.ite (GoesOn.error nofun) (GoesOn.ite (GoesOn.error nofun) (GoesOn.ok _))

/-! ### Names at which the reader gives up -/

/-- What one part between two separators does. -/
def readPart (s : DataSource) (part : Octets) : Except DataSourceError DataSource :=
  match cutAt? '=' part with
  | none => .ok s
  | some (key, value) => s.readParameter key value

theorem readParameters_eq_foldlM (s : DataSource) (text : Octets) :
    s.readParameters text = (splitOn '&' text).foldlM readPart s := rfl

/-- A part that sets the removed parameter, to whatever value. -/
def IsRemoved (part : Octets) : Prop := ∃ key value, cutAt? '=' part = some (key, value) ∧ key.toText = "strict"

theorem readPart_eq_removed_iff {part : Octets} : s.readPart part = .error .removedParameter ↔ IsRemoved part := by
  unfold readPart IsRemoved
  cases hcut : cutAt? '=' part with
  | none => simp
  | some parts =>
    obtain ⟨key, value⟩ := parts
    simp only [Option.some.injEq, Prod.mk.injEq]
    constructor
    · intro h
      by_cases hkey : key.toText = "strict"
      · exact ⟨key, value, ⟨rfl, rfl⟩, hkey⟩
      · exact absurd h (readParameter_goesOn hkey value)
    · rintro ⟨_, _, ⟨rfl, rfl⟩, hkey⟩
      exact readParameter_strict hkey value

/-- The settings from the part in front of the last slash. -/
def ofServer (server : Octets) : Except DataSourceError DataSource :=
  if server.isEmpty then .ok {} else readServer {} server

/-- **The reader gets to the removed parameter**: the server can be read, and so can all parameters in front. -/
def ReachesRemoved (name : Octets) : Prop :=
  ∃ server rest database text s, cutLast? '/' name = some (server, rest) ∧
    cutAt? '?' rest = some (database, text) ∧ ofServer server = .ok s ∧
    ∃ front part back t, splitOn '&' text = front ++ part :: back ∧ front.foldlM readPart s = .ok t ∧
      IsRemoved part

theorem readParameters_eq_removed_iff {text : Octets} :
    s.readParameters text = .error .removedParameter ↔
      ∃ front part back t, splitOn '&' text = front ++ part :: back ∧ front.foldlM readPart s = .ok t ∧
        IsRemoved part := by
  simp only [readParameters_eq_foldlM, foldlM_eq_error_iff, readPart_eq_removed_iff]

/-- What is left to do behind the parameters. -/
def finish (s : DataSource) (database : Octets) : Except DataSourceError DataSource := do
  let database ← (Url.Component.pathSegment.unescape database).mapError (.badDatabase database)
  complete { s with database }

theorem finish_goesOn (s : DataSource) (database : Octets) : GoesOn (s.finish database) := by
  unfold finish
  exact (GoesOn.mapError (.badDatabase database) (fun _ => nofun) _).bind fun _ => complete_goesOn _

theorem ofServer_goesOn (server : Octets) : GoesOn (ofServer server) :=
  GoesOn.ite (GoesOn.ok _) (readServer_goesOn _ server)

/-- The steps of the reader, without parameters and with them. -/
theorem parse_eq_finish {server rest : Octets} (hslash : cutLast? '/' name = some (server, rest))
    (hmark : cutAt? '?' rest = none) : parse name = ofServer server >>= (finish · rest) := by
  unfold parse ofServer
  rw [hslash]
  simp only [hmark]
  cases hempty : server.isEmpty <;> rfl

theorem parse_eq_readParameters {server rest database text : Octets}
    (hslash : cutLast? '/' name = some (server, rest))
    (hmark : cutAt? '?' rest = some (database, text)) :
    parse name = ofServer server >>= fun s => s.readParameters text >>= (finish · database) := by
  unfold parse ofServer
  rw [hslash]
  simp only [hmark]
  cases hempty : server.isEmpty <;> rfl

theorem bind_eq_removed_iff {α β : Type} {x : Except DataSourceError α} {f : α → Except DataSourceError β}
    (hx : GoesOn x) : x >>= f = .error .removedParameter ↔ ∃ a, x = .ok a ∧ f a = .error .removedParameter := by
  cases x with
  | error e => simpa [bind, Except.bind, GoesOn] using hx
  | ok a => simp [bind, Except.bind]

/-- **The reader gives up exactly when it gets there.** -/
theorem parse_eq_removed_iff : parse name = .error .removedParameter ↔ ReachesRemoved name := by
  constructor
  · intro hparse
    cases hslash : cutLast? '/' name with
    | none =>
      unfold parse at hparse
      rw [hslash] at hparse
      exact absurd hparse (GoesOn.ite (complete_goesOn _) (GoesOn.error nofun))
    | some parts =>
      obtain ⟨server, rest⟩ := parts
      cases hmark : cutAt? '?' rest with
      | none =>
        rw [parse_eq_finish hslash hmark] at hparse
        exact absurd hparse ((ofServer_goesOn server).bind fun s => finish_goesOn s rest)
      | some parts =>
        obtain ⟨database, text⟩ := parts
        rw [parse_eq_readParameters hslash hmark, bind_eq_removed_iff (ofServer_goesOn server)] at hparse
        obtain ⟨s, hs, hread⟩ := hparse
        refine ⟨server, rest, database, text, s, hslash, hmark, hs, readParameters_eq_removed_iff.1 ?_⟩
        cases hparameters : s.readParameters text with
        | error e =>
          rw [hparameters] at hread
          exact congrArg _ (Except.error.inj hread)
        | ok t =>
          rw [hparameters] at hread
          exact absurd hread (finish_goesOn t database)
  · rintro ⟨server, rest, database, text, s, hslash, hmark, hs, hreached⟩
    rw [parse_eq_readParameters hslash hmark, hs]
    show s.readParameters text >>= (finish · database) = _
    rw [readParameters_eq_removed_iff.2 hreached]
    rfl

end DataSource

/-! ### Connect URLs without settings -/

/-- A connect URL that is read as a data source name, in which the reader gets to the removed parameter. -/
structure NamesRemoved (raw : String) : Prop where
  notUrl : (Url.parse? (ofString raw)).filter (·.scheme = ofString "mysql") = none
  reaches : DataSource.ReachesRemoved (ofString raw)

theorem mysqlName_eq_error_iff {raw : String} {e : DataSourceError} :
    mysqlName raw = .error e ↔ e = .removedParameter ∧ NamesRemoved raw := by
  unfold mysqlName
  by_cases hempty : (ofString raw).isEmpty
  · rw [if_pos hempty]
    refine ⟨nofun, fun ⟨_, h⟩ => ?_⟩
    obtain ⟨_, _, _, _, _, hslash, -⟩ := h.reaches
    rw [List.isEmpty_iff.1 hempty] at hslash
    cases hslash
  · rw [if_neg hempty]
    split
    · rename_i u hu
      refine ⟨nofun, fun ⟨_, h⟩ => ?_⟩
      rw [h.notUrl] at hu
      cases hu
    · rename_i hnot
      split
      · rename_i source hparse
        refine ⟨nofun, fun ⟨_, h⟩ => ?_⟩
        rw [DataSource.parse_eq_removed_iff.2 h.reaches] at hparse
        cases hparse
      · rename_i hparse
        have hnames : NamesRemoved raw := ⟨hnot, DataSource.parse_eq_removed_iff.1 hparse⟩
        exact ⟨fun h => ⟨(Except.error.inj h).symm, hnames⟩, fun ⟨h, _⟩ => congrArg _ h.symm⟩
      · rename_i hother hparse
        refine ⟨nofun, fun ⟨_, h⟩ => ?_⟩
        rw [DataSource.parse_eq_removed_iff.2 h.reaches] at hparse
        exact absurd (Except.error.inj hparse).symm hother

/-- **The connect URLs without settings** are those of one engine that name the removed parameter. -/
theorem connection_eq_error_iff {engine : Engine} {raw : String} {e : DataSourceError} :
    engine.connection raw = .error e ↔ engine = .mysql ∧ e = .removedParameter ∧ NamesRemoved raw := by
  cases engine with
  | mssql => simp [Engine.connection]
  | mysql =>
    rw [Engine.connection, ← mysqlName_eq_error_iff]
    cases mysqlName raw <;> simp [Except.map]

end ServiceCompiler
