import Mathlib.Algebra.GroupWithZero.Nat
import ServiceCompiler.Proofs.Sql.MigrationRun
import ServiceCompiler.Proofs.Text.Decimal

namespace ServiceCompiler

open List

/-!
# Concurrent migrators

Several migrators of one engine work on one database, their statements interleaved in any order.

* `TableServer` — a server on which tables are counted and created, as the engines do it.
* `Pool`, `Pool.Moves`, `Pool.Reaches` — the migrators with the tables they share, and the moves of a
  single migrator: it issues its next statement, or it reports to its log.
* `Stage`, `Worker` — where a migrator can stand, and what it has behind it.  One move of a worker
  (`Worker.ask`, `Worker.log`) leaves it at a stage from which fewer moves follow.
* `Pool.Sound` — the invariant of all that is reached, from which `concurrent_migrators_safe` is read.
-/

/-! ### The server -/

/-- A table: its name, and the statement that defined it. -/
structure Table (κ : Type) where
  name : κ
  definition : String

/-- A server on which tables are created.  Names are compared as the server compares them, so that a
    text names some `κ`; a statement is about one of these. -/
structure TableServer (κ : Type) where
  engine : Engine
  nameOf : String → κ
  subject : Statement → κ
  /-- The column in which a count stands. -/
  column : String
  /-- What the refusal to create a table that exists says. -/
  refusal : κ → String

section

variable {κ : Type} [DecidableEq κ]

/-- The number of tables of a name. -/
def countTables (name : κ) (tables : List (Table κ)) : Nat := tables.countP (·.name = name)

/-- The outcome of a statement that gives nothing. -/
def noRows : Except Failure ResultSet := .ok { columns := [], rows := [] }

namespace TableServer

variable (v : TableServer κ)

/-- What a statement gives, and the tables after it.  A query counts the tables of a name.  Creating a
    table that exists does nothing on the one engine and is refused with number 2714 on the other. -/
def perform (statement : Statement) (tables : List (Table κ)) :
    Except Failure ResultSet × List (Table κ) :=
  let name := v.subject statement
  let count := countTables name tables
  match statement.kind with
  | .query => (.ok { columns := [v.column], rows := [[.number count]] }, tables)
  | .exec =>
    if count = 0 then (noRows, tables ++ [⟨name, statement.text⟩])
    else
      match v.engine with
      | .mysql => (noRows, tables)
      | .mssql => (.error (.database .mssql 2714 (v.refusal name)), tables)

/-- The server takes the statements of a migration to be about its table. -/
structure Reads (m : Migration) : Prop where
  query : (v.engine.planStep m).existsQuery ≠ "" →
    v.subject (v.engine.planStep m).query = v.nameOf m.table
  creation : v.subject (v.engine.planStep m).creation = v.nameOf m.table

def tableOf (m : Migration) : Table κ := ⟨v.nameOf m.table, (v.engine.planStep m).create⟩

def IsThere (tables : List (Table κ)) (m : Migration) : Prop :=
  0 < countTables (v.nameOf m.table) tables

end TableServer

/-! ### Migrators side by side -/

/-- Migrators at work, and the tables they share. -/
structure Pool (κ : Type) where
  sessions : List (Session (Except Failure Unit))
  tables : List (Table κ)

namespace Pool

/-- One move of one migrator: it issues its next statement, or reports to its log. -/
inductive Moves (v : TableServer κ) : Pool κ → Pool κ → Prop
  | ask (before after : List (Session (Except Failure Unit))) (statement : Statement)
    (next : Except Failure ResultSet → Session (Except Failure Unit)) (tables : List (Table κ)) :
    Moves v ⟨before ++ .ask statement next :: after, tables⟩
      ⟨before ++ next (v.perform statement tables).1 :: after, (v.perform statement tables).2⟩
  | log (before after : List (Session (Except Failure Unit))) (record : LogRecord)
    (next : Session (Except Failure Unit)) (tables : List (Table κ)) :
    Moves v ⟨before ++ .log record next :: after, tables⟩ ⟨before ++ next :: after, tables⟩

/-- What is reached in a number of moves, whichever migrator makes each of them. -/
inductive Reaches (v : TableServer κ) (start : Pool κ) : Nat → Pool κ → Prop
  | start : Reaches v start 0 start
  | move {n : Nat} {p q : Pool κ} : Reaches v start n p → Moves v p q → Reaches v start (n + 1) q

def start (v : TableServer κ) (lists : List (List Migration)) (tables : List (Table κ)) : Pool κ where
  sessions := lists.map fun ms => migrate (v.engine.plan ms)
  tables

end Pool

/-! ### Counting and creating -/

/-- Names of which no more tables exist than a count can tell. -/
def Countable (tables : List (Table κ)) : Prop :=
  ∀ name, countTables name tables < Number.signedLimit

theorem countTables_append (name : κ) (tables added : List (Table κ)) :
    countTables name (tables ++ added) = countTables name tables + countTables name added :=
  countP_append

theorem countTables_pos_iff {name : κ} {tables : List (Table κ)} :
    0 < countTables name tables ↔ ∃ t ∈ tables, t.name = name := by
  simp [countTables, countP_pos_iff]

theorem TableServer.isThere_append {v : TableServer κ} {tables : List (Table κ)} {m : Migration}
    (h : v.IsThere tables m) (added : List (Table κ)) : v.IsThere (tables ++ added) m := by
  rw [IsThere, countTables_append]
  exact Nat.lt_of_lt_of_le h (Nat.le_add_right _ _)

/-- A count is read as the number it stands for. -/
theorem countOf_number (column : String) {n : Nat} (h : n < Number.signedLimit) :
    countOf (.ok { columns := [column], rows := [[.number n]] }) = .ok n := by
  obtain ⟨c, cs, hcs⟩ := exists_cons_of_ne_nil (Text.decimal_ne_empty n)
  have hdigit : c.isDigit := Text.isDigit_of_mem_decimal (i := n) (hcs ▸ mem_cons_self)
  have hminus : c ≠ '-' := by rintro rfl; cases hdigit
  have hplus : c ≠ '+' := by rintro rfl; cases hdigit
  have hfits : Number.fitsSigned n = true := by
    simp only [Number.fitsSigned, Bool.and_eq_true, decide_eq_true_eq]
    omega
  have hcell : (Cell.number n).toCount = .ok (n : Int) := by
    have hshown : (Cell.number n).shown.toList = c :: cs := hcs
    have hnumber : Text.natOf? 10 (c :: cs) = some n := hcs ▸ Text.natOf?_decimal n
    simp [Cell.toCount, hshown, hminus, hplus, hnumber, hfits]
  show (ResultSet.toCount _ |>.mapError _).mapError _ = _
  rw [ResultSet.toCount]
  simp only [headD_cons, hcell]
  rfl

/-- A table that exists is known from the refusal to create it, also below the label of the driver. -/
theorem isTableExists_refused (label message : String) :
    (Failure.within label (.database .mssql 2714 message)).isTableExists = true := by
  simp [Failure.isTableExists, Failure.refusal?, Failure.lineage, Failure.tableExistsNumber]

namespace TableServer

variable {v : TableServer κ} {m : Migration} {tables : List (Table κ)}

/-- What the tables can be after a statement: what they were, or these with the table of one of the
    given migrations, of which there was none. -/
inductive Grows (v : TableServer κ) (ms : List Migration) (tables : List (Table κ)) :
    List (Table κ) → Prop
  | same : Grows v ms tables tables
  | created {m : Migration} : m ∈ ms → countTables (v.nameOf m.table) tables = 0 →
    Grows v ms tables (tables ++ [v.tableOf m])

/-- No table is lost. -/
theorem Grows.isThere {ms : List Migration} {tables' : List (Table κ)} (h : v.Grows ms tables tables')
    (hm : v.IsThere tables m) : v.IsThere tables' m := by
  cases h with
  | same => exact hm
  | created => exact isThere_append hm _

/-- **Counting.** The number of tables is read, and nothing else happens. -/
theorem perform_query (hreads : v.Reads m) (hcountable : Countable tables)
    (hquery : (v.engine.planStep m).existsQuery ≠ "") :
    countOf (v.perform (v.engine.planStep m).query tables).1 =
        .ok (countTables (v.nameOf m.table) tables) ∧
      (v.perform (v.engine.planStep m).query tables).2 = tables := by
  refine ⟨?_, rfl⟩
  show countOf (.ok { columns := [v.column], rows := [[.number (countTables (v.subject _) tables)]] }) = _
  rw [hreads.query hquery]
  exact countOf_number v.column (hcountable _)

/-- What the statement that creates the table of a migration does. -/
theorem perform_creation_eq (hreads : v.Reads m) (tables : List (Table κ)) :
    v.perform (v.engine.planStep m).creation tables =
      if countTables (v.nameOf m.table) tables = 0 then (noRows, tables ++ [v.tableOf m])
      else
        match v.engine with
        | .mysql => (noRows, tables)
        | .mssql => (.error (.database .mssql 2714 (v.refusal (v.nameOf m.table))), tables) := by
  rw [← hreads.creation, tableOf, ← hreads.creation]
  rfl

/-- **Creating.** Whoever creates the table of a migration goes on, and then it is there: it was missing
    and is created, or it was there and is left alone. -/
theorem perform_creation (hreads : v.Reads m) (tables : List (Table κ)) (rest : List PlanStep) :
    let outcome := (v.perform (v.engine.planStep m).creation tables).1
    let tables' := (v.perform (v.engine.planStep m).creation tables).2
    (∃ applied, (v.engine.planStep m).afterCreate rest outcome =
        (v.engine.planStep m).passing applied rest) ∧
      v.IsThere tables' m ∧
      ((countTables (v.nameOf m.table) tables = 0 ∧ tables' = tables ++ [v.tableOf m]) ∨
        tables' = tables) := by
  rw [perform_creation_eq hreads]
  by_cases hcount : countTables (v.nameOf m.table) tables = 0
  · rw [if_pos hcount]
    refine ⟨⟨true, rfl⟩, ?_, .inl ⟨hcount, rfl⟩⟩
    rw [IsThere, countTables_append]
    refine Nat.lt_of_lt_of_le (countTables_pos_iff.2 ⟨v.tableOf m, ?_, rfl⟩) (Nat.le_add_left _ _)
    exact mem_singleton_self _
  · rw [if_neg hcount]
    have hthere : v.IsThere tables m := Nat.pos_of_ne_zero hcount
    cases v.engine with
    | mysql => exact ⟨⟨true, rfl⟩, hthere, .inr rfl⟩
    | mssql =>
      refine ⟨⟨false, ?_⟩, hthere, .inr rfl⟩
      simp only [PlanStep.afterCreate, execOf, Except.map, Except.mapError, isTableExists_refused, if_true]

end TableServer

/-! ### Where a migrator stands -/

/-- Where a migrator can stand that has some migrations before it: in front of the first of them, in front
    of the statement that creates its table, or in front of the report on the one before.  At most the
    given number of moves follow. -/
inductive Stage (e : Engine) : Nat → List Migration → Session (Except Failure Unit) → Prop
  | ready (ms : List Migration) : Stage e (3 * ms.length) ms (migrate (e.plan ms))
  | creating (m : Migration) (ms : List Migration) :
    Stage e (3 * ms.length + 2) (m :: ms) ((e.planStep m).creating (e.plan ms))
  | passing (m : Migration) (applied : Bool) (ms : List Migration) :
    Stage e (3 * ms.length + 1) ms ((e.planStep m).passing applied (e.plan ms))

namespace Stage

variable {e : Engine} {v : TableServer κ} {left : Nat} {ms : List Migration}
  {session : Session (Except Failure Unit)} {tables : List (Table κ)}

/-- What comes of a statement: some of the migrations are done with, their tables are there, the migrator
    stands before the others, and the tables are what they were, or one was created. -/
def Leads (v : TableServer κ) (left : Nat) (ms : List Migration) (tables tables' : List (Table κ))
    (session' : Session (Except Failure Unit)) : Prop :=
  ∃ left' passed rest, left' < left ∧ ms = passed ++ rest ∧ Stage v.engine left' rest session' ∧
    (∀ m ∈ passed, v.IsThere tables' m) ∧ v.Grows ms tables tables'

theorem leads_creating (m : Migration) (ms : List Migration) (hreads : v.Reads m)
    (hleft : 3 * ms.length + 1 < left) :
    Leads v left (m :: ms) tables (v.perform (v.engine.planStep m).creation tables).2
      ((v.engine.planStep m).afterCreate (v.engine.plan ms)
        (v.perform (v.engine.planStep m).creation tables).1) := by
  obtain ⟨⟨applied, hafter⟩, hthere, htables⟩ :=
    TableServer.perform_creation hreads tables (v.engine.plan ms)
  refine ⟨_, [m], ms, hleft, rfl, hafter ▸ .passing m applied ms, by simpa using hthere, ?_⟩
  rcases htables with ⟨hzero, htables⟩ | htables
  · rw [htables]
    exact .created mem_cons_self hzero
  · rw [htables]
    exact .same

/-- **A statement.** Whatever stage a migrator is at, its next statement brings it on. -/
theorem ask (hs : Stage v.engine left ms session) (hreads : ∀ m ∈ ms, v.Reads m)
    (hcountable : Countable tables) {statement : Statement}
    {next : Except Failure ResultSet → Session (Except Failure Unit)}
    (hsession : session = .ask statement next) :
    Leads v left ms tables (v.perform statement tables).2 (next (v.perform statement tables).1) := by
  cases hs with
  | ready =>
    cases ms with
    | nil => cases hsession
    | cons m ms =>
      have hm : v.Reads m := hreads m mem_cons_self
      have hlength : (m :: ms).length = ms.length + 1 := rfl
      rw [show v.engine.plan (m :: ms) = v.engine.planStep m :: v.engine.plan ms from rfl, migrate_cons] at hsession
      split at hsession
      · obtain ⟨rfl, rfl⟩ := Session.ask.inj hsession
        exact leads_creating m ms hm (by omega)
      · rename_i hquery
        obtain ⟨rfl, rfl⟩ := Session.ask.inj hsession
        obtain ⟨hcount, htables⟩ := TableServer.perform_query hm hcountable hquery
        rw [htables, PlanStep.afterCount, hcount]
        dsimp only
        split
        · rename_i hpos
          refine ⟨_, [m], ms, ?_, rfl, .passing m false ms, ?_, .same⟩
          · omega
          · intro q hq
            obtain rfl := mem_singleton.1 hq
            exact Int.ofNat_lt.1 hpos
        · refine ⟨_, [], m :: ms, ?_, rfl, .creating m ms, by simp, .same⟩
          omega
  | creating m ms =>
    obtain ⟨rfl, rfl⟩ := Session.ask.inj hsession
    exact leads_creating m ms (hreads m mem_cons_self) (by omega)
  | passing m applied ms => cases hsession

/-- **A report** brings a migrator in front of the next migration. -/
theorem log (hs : Stage e left ms session) {record : LogRecord}
    {next : Session (Except Failure Unit)} (hsession : session = .log record next) :
    ∃ left', left' < left ∧ Stage e left' ms next := by
  cases hs with
  | ready =>
    cases ms with
    | nil => cases hsession
    | cons m ms =>
      rw [show e.plan (m :: ms) = e.planStep m :: e.plan ms from rfl, migrate_cons] at hsession
      split at hsession <;> cases hsession
  | creating m ms => cases hsession
  | passing m applied ms =>
    obtain ⟨-, rfl⟩ := Session.log.inj hsession
    exact ⟨_, by omega, .ready ms⟩

/-- **The end.** A migrator that has ended had nothing before it, and did not fail. -/
theorem done (hs : Stage e left ms session) {result : Except Failure Unit}
    (hsession : session = .done result) : ms = [] ∧ result = .ok () := by
  cases hs with
  | ready =>
    cases ms with
    | nil => exact ⟨rfl, (Session.done.inj hsession).symm⟩
    | cons m ms =>
      rw [show e.plan (m :: ms) = e.planStep m :: e.plan ms from rfl, migrate_cons] at hsession
      split at hsession <;> cases hsession
  | creating m ms => cases hsession
  | passing m applied ms => cases hsession

end Stage

/-- A migrator at work: the migrations it is done with, those before it, and its session, which is at one
    of the stages. -/
structure Worker (e : Engine) where
  passed : List Migration
  ahead : List Migration
  left : Nat
  session : Session (Except Failure Unit)
  stage : Stage e left ahead session

def Worker.migrations {e : Engine} (w : Worker e) : List Migration := w.passed ++ w.ahead

def Worker.start (e : Engine) (ms : List Migration) : Worker e where
  passed := []
  ahead := ms
  left := 3 * ms.length
  session := migrate (e.plan ms)
  stage := .ready ms

/-! ### The invariant -/

/-- How tables may have grown: by tables of the given migrations, of which none was there before and none
    was added twice. -/
def TableServer.GrownFrom (v : TableServer κ) (ms : List Migration) (initial tables : List (Table κ)) :
    Prop :=
  ∃ added, tables = initial ++ added ∧ (added.map Table.name).Nodup ∧
    ∀ t ∈ added, countTables t.name initial = 0 ∧ ∃ m ∈ ms, t = v.tableOf m

namespace TableServer

variable {v : TableServer κ} {ms : List Migration} {initial tables tables' : List (Table κ)}

/-- A name that was missing is there once at most, and others are there as often as before. -/
theorem GrownFrom.countTables_le (h : v.GrownFrom ms initial tables) (name : κ) :
    (countTables name initial ≠ 0 → countTables name tables = countTables name initial) ∧
      (countTables name initial = 0 → countTables name tables ≤ 1) := by
  obtain ⟨added, rfl, hnodup, hadded⟩ := h
  rw [countTables_append]
  constructor
  · intro hne
    have hzero : countTables name added = 0 := by
      by_contra hpos
      obtain ⟨t, ht, rfl⟩ := countTables_pos_iff.1 (Nat.pos_of_ne_zero hpos)
      exact hne (hadded t ht).1
    omega
  · intro hzero
    have hcount : countTables name added = (added.map Table.name).count name := by
      rw [countTables, count_eq_countP, countP_map]
      congr 1
    have := nodup_iff_count_le_one.1 hnodup name
    omega

theorem GrownFrom.countable (h : v.GrownFrom ms initial tables) (hinitial : Countable initial) :
    Countable tables := by
  intro name
  obtain ⟨hsame, hone⟩ := h.countTables_le name
  have hlimit : 1 < Number.signedLimit := by decide
  by_cases hzero : countTables name initial = 0
  · exact Nat.lt_of_le_of_lt (hone hzero) hlimit
  · exact hsame hzero ▸ hinitial name

/-- Another statement of a migrator lets the tables grow in the same way. -/
theorem GrownFrom.grows (h : v.GrownFrom ms initial tables) {qs : List Migration}
    (hqs : ∀ m ∈ qs, m ∈ ms) (hgrows : v.Grows qs tables tables') : v.GrownFrom ms initial tables' := by
  cases hgrows with
  | same => exact h
  | @created m hm hzero =>
    obtain ⟨added, rfl, hnodup, hadded⟩ := h
    rw [countTables_append] at hzero
    have hinitial : countTables (v.tableOf m).name initial = 0 :=
      Nat.eq_zero_of_add_eq_zero_right hzero
    have hfresh : (v.tableOf m).name ∉ added.map Table.name := by
      intro hmem
      obtain ⟨t, ht, heq⟩ := mem_map.1 hmem
      have hpos : 0 < countTables (v.nameOf m.table) added := countTables_pos_iff.2 ⟨t, ht, heq⟩
      omega
    refine ⟨added ++ [v.tableOf m], append_assoc _ _ _, ?_, ?_⟩
    · rw [map_append, nodup_append]
      refine ⟨hnodup, nodup_singleton _, ?_⟩
      intro a ha b hb hab
      obtain rfl : b = (v.tableOf m).name := by simpa using hb
      exact hfresh (hab ▸ ha)
    · intro t ht
      rcases mem_append.1 ht with ht | ht
      · exact hadded t ht
      · obtain rfl := mem_singleton.1 ht
        exact ⟨hinitial, m, hqs m hm, rfl⟩

end TableServer

/-- **The invariant** of what is reached in some number of moves: every migrator is at a stage, the tables
    it is done with are there, the tables have grown by what was missing, and the moves made and those
    left are bounded. -/
def Pool.Sound (v : TableServer κ) (lists : List (List Migration)) (initial : List (Table κ)) (n : Nat)
    (p : Pool κ) : Prop :=
  v.GrownFrom lists.flatten initial p.tables ∧
    ∃ ws : List (Worker v.engine), ws.map Worker.migrations = lists ∧ ws.map Worker.session = p.sessions ∧
      (∀ w ∈ ws, ∀ m ∈ w.passed, v.IsThere p.tables m) ∧
      n + (ws.map Worker.left).sum ≤ 3 * lists.flatten.length

namespace Pool

variable {v : TableServer κ} {lists : List (List Migration)} {initial : List (Table κ)} {n : Nat}
  {p q : Pool κ}

theorem sound_start (v : TableServer κ) (lists : List (List Migration)) (initial : List (Table κ)) :
    Sound v lists initial 0 (start v lists initial) := by
  refine ⟨⟨[], (append_nil _).symm, nodup_nil, by simp⟩,
    lists.map (Worker.start v.engine), ?_, ?_, ?_, ?_⟩
  · rw [map_map]
    exact map_id _
  · rw [map_map]
    rfl
  · intro w hw m hm
    obtain ⟨ms, -, rfl⟩ := mem_map.1 hw
    cases hm
  · rw [Nat.zero_add, map_map, length_flatten]
    refine Nat.le_of_eq ?_
    induction lists with
    | nil => rfl
    | cons ms lists ih =>
      simp only [map_cons, sum_cons, ih, Nat.mul_add]
      rfl

/-- A worker in a pool that moves on is replaced; the others see the tables as they are now. -/
theorem Sound.replace {ws us : List (Worker v.engine)} {w : Worker v.engine} (w' : Worker v.engine)
    {tables tables' : List (Table κ)} (hgrown : v.GrownFrom lists.flatten initial tables)
    (hlists : (ws ++ w :: us).map Worker.migrations = lists)
    (hpassed : ∀ x ∈ ws ++ w :: us, ∀ m ∈ x.passed, v.IsThere tables m)
    (hbound : n + ((ws ++ w :: us).map Worker.left).sum ≤ 3 * lists.flatten.length)
    (hleft : w'.left < w.left) (hmigrations : w'.migrations = w.migrations)
    (hpassed' : ∀ m ∈ w'.passed, v.IsThere tables' m) (hgrows : v.Grows w.ahead tables tables') :
    Sound v lists initial (n + 1)
      ⟨ws.map Worker.session ++ w'.session :: us.map Worker.session, tables'⟩ := by
  have hahead : ∀ m ∈ w.ahead, m ∈ lists.flatten := by
    intro m hm
    refine mem_flatten.2 ⟨w.migrations, ?_, mem_append_right _ hm⟩
    rw [← hlists]
    exact mem_map_of_mem (by simp)
  refine ⟨hgrown.grows hahead hgrows, ws ++ w' :: us, ?_, by simp, ?_, ?_⟩
  · rw [← hlists, map_append, map_append, map_cons, map_cons, hmigrations]
  · intro x hx m hm
    rcases mem_append.1 hx with hx | hx
    · exact hgrows.isThere (hpassed x (mem_append_left _ hx) m hm)
    · rcases mem_cons.1 hx with rfl | hx
      · exact hpassed' m hm
      · exact hgrows.isThere (hpassed x (mem_append_right _ (mem_cons_of_mem _ hx)) m hm)
  · simp only [map_append, map_cons, sum_append, sum_cons] at hbound ⊢
    omega

/-- **The step.** Every move of every migrator keeps the invariant. -/
theorem Sound.moves (h : Sound v lists initial n p) (hreads : ∀ m ∈ lists.flatten, v.Reads m)
    (hcountable : Countable initial) (hmoves : Moves v p q) : Sound v lists initial (n + 1) q := by
  obtain ⟨hgrown, ws, hlists, hsessions, hpassed, hbound⟩ := h
  cases hmoves with
  | ask before after statement next tables =>
    obtain ⟨ws, us', rfl, rfl, hus⟩ := map_eq_append_iff.1 hsessions
    obtain ⟨w, us, rfl, hw, rfl⟩ := map_eq_cons_iff.1 hus
    have hw_mem : w ∈ ws ++ w :: us := mem_append_right _ mem_cons_self
    have hahead : ∀ m ∈ w.ahead, v.Reads m := by
      intro m hm
      refine hreads m (mem_flatten.2 ⟨w.migrations, ?_, mem_append_right _ hm⟩)
      rw [← hlists]
      exact mem_map_of_mem hw_mem
    obtain ⟨left, passed, rest, hleft, hsplit, hstage, hthere, hgrows⟩ :=
      w.stage.ask hahead (hgrown.countable hcountable) hw
    refine Sound.replace ⟨w.passed ++ passed, rest, left, _, hstage⟩ hgrown hlists hpassed hbound
      hleft ?_ ?_ hgrows
    · rw [Worker.migrations, Worker.migrations, hsplit, append_assoc]
    · intro m hm
      rcases mem_append.1 hm with hm | hm
      · exact hgrows.isThere (hpassed w hw_mem m hm)
      · exact hthere m hm
  | log before after record next tables =>
    obtain ⟨ws, us', rfl, rfl, hus⟩ := map_eq_append_iff.1 hsessions
    obtain ⟨w, us, rfl, hw, rfl⟩ := map_eq_cons_iff.1 hus
    obtain ⟨left, hleft, hstage⟩ := w.stage.log hw
    exact Sound.replace ⟨w.passed, w.ahead, left, next, hstage⟩ hgrown hlists hpassed hbound
      hleft rfl (hpassed w (mem_append_right _ mem_cons_self)) .same

/-- **The run.** The invariant holds wherever the migrators get. -/
theorem sound_of_reaches (hreads : ∀ m ∈ lists.flatten, v.Reads m) (hcountable : Countable initial)
    (h : Reaches v (start v lists initial) n p) : Sound v lists initial n p := by
  induction h with
  | start => exact sound_start v lists initial
  | move _ hmoves ih => exact ih.moves hreads hcountable hmoves

end Pool

/-! ### Safety -/

/-- Whether a migrator has ended without a failure. -/
def Session.Succeeded (session : Session (Except Failure Unit)) : Prop := session = .done (.ok ())

/-- **What is safe about a pool** that started with some tables: there are as many migrators as lists; no
    migrator failed, and one can move on unless all have ended; the tables of the start are as they were;
    every other table was created by one statement of the migrations, and none of a name that was there.
    When all have ended, the table of every migration is there, and one of a name that was missing
    is there once. -/
structure Pool.Safe (v : TableServer κ) (lists : List (List Migration)) (initial : List (Table κ))
    (p : Pool κ) : Prop where
  migrators : p.sessions.length = lists.length
  results : ∀ result, .done result ∈ p.sessions → result = .ok ()
  progress : (∀ session ∈ p.sessions, session.Succeeded) ∨ ∃ q, Moves v p q
  created : ∃ added, p.tables = initial ++ added ∧ (added.map Table.name).Nodup ∧
    ∀ t ∈ added, countTables t.name initial = 0 ∧ ∃ ms ∈ lists, ∃ m ∈ ms, t = v.tableOf m
  finished : (∀ session ∈ p.sessions, session.Succeeded) → ∀ ms ∈ lists, ∀ m ∈ ms,
    0 < countTables (v.nameOf m.table) p.tables ∧
      (countTables (v.nameOf m.table) initial = 0 → countTables (v.nameOf m.table) p.tables = 1)

namespace Pool

variable {v : TableServer κ} {lists : List (List Migration)} {initial : List (Table κ)} {n : Nat}
  {p : Pool κ}

/-- Migrators move on until all have ended. -/
theorem exists_moves {sessions : List (Session (Except Failure Unit))} {tables : List (Table κ)}
    (hresults : ∀ result, .done result ∈ sessions → result = .ok ())
    (hleft : ¬ ∀ session ∈ sessions, session.Succeeded) : ∃ q, Moves v ⟨sessions, tables⟩ q := by
  obtain ⟨session, hleft⟩ := not_forall.1 hleft
  obtain ⟨hmem, hended⟩ := Classical.not_imp.1 hleft
  obtain ⟨before, after, rfl⟩ := append_of_mem hmem
  cases session with
  | done result => exact absurd (congrArg Session.done (hresults result hmem)) hended
  | log record next => exact ⟨_, .log before after record next tables⟩
  | ask statement next => exact ⟨_, .ask before after statement next tables⟩

theorem Sound.safe (h : Sound v lists initial n p) : Safe v lists initial p := by
  obtain ⟨sessions, tables⟩ := p
  obtain ⟨hgrown, ws, hlists, hsessions, hpassed, -⟩ := h
  dsimp only at hgrown hsessions hpassed
  have hresults : ∀ result, .done result ∈ sessions → result = .ok () := by
    intro result hmem
    obtain ⟨w, -, hw⟩ := mem_map.1 (hsessions ▸ hmem)
    exact (w.stage.done hw).2
  refine ⟨?_, hresults, ?_, ?_, ?_⟩
  · rw [← hsessions, ← hlists, length_map, length_map]
  · by_cases hended : ∀ session ∈ sessions, session.Succeeded
    · exact .inl hended
    · exact .inr (exists_moves hresults hended)
  · obtain ⟨added, htables, hnodup, hadded⟩ := hgrown
    refine ⟨added, htables, hnodup, ?_⟩
    intro t ht
    obtain ⟨hzero, m, hm, rfl⟩ := hadded t ht
    obtain ⟨ms, hms, hm⟩ := mem_flatten.1 hm
    exact ⟨hzero, ms, hms, m, hm, rfl⟩
  · intro hended ms hms m hm
    have hthere : v.IsThere tables m := by
      -- The migrator of the list has nothing before it, so the migration is one it is done with.
      obtain ⟨w, hw, rfl⟩ := mem_map.1 (hlists ▸ hms)
      obtain ⟨hahead, -⟩ := w.stage.done (hended w.session (hsessions ▸ mem_map_of_mem hw))
      rw [Worker.migrations, hahead, append_nil] at hm
      exact hpassed w hw m hm
    refine ⟨hthere, ?_⟩
    intro hzero
    have hone := (hgrown.countTables_le (v.nameOf m.table)).2 hzero
    exact Nat.le_antisymm hone hthere

end Pool

/-- **Concurrent migrators are safe.** Any number of migrators of one engine, each with its own list, work
    on one server that takes their statements to be about the tables they name.  However their moves
    are interleaved, there are at most three for each migration, and all that is reached is safe: as no
    migrator fails and one can move on until all have ended, each of them succeeds in the end. -/
theorem concurrent_migrators_safe (v : TableServer κ) (lists : List (List Migration))
    (initial : List (Table κ)) (hreads : ∀ ms ∈ lists, ∀ m ∈ ms, v.Reads m)
    (hcountable : ∀ name, countTables name initial < Number.signedLimit) {n : Nat} {p : Pool κ}
    (h : Pool.Reaches v (Pool.start v lists initial) n p) :
    n ≤ 3 * lists.flatten.length ∧ Pool.Safe v lists initial p := by
  have hsound : Pool.Sound v lists initial n p := by
    refine Pool.sound_of_reaches ?_ hcountable h
    intro m hm
    obtain ⟨ms, hms, hm⟩ := List.mem_flatten.1 hm
    exact hreads ms hms m hm
  refine ⟨?_, hsound.safe⟩
  obtain ⟨-, ws, -, -, -, hbound⟩ := hsound
  exact Nat.le_trans (Nat.le_add_right _ _) hbound

end

/-! ### A lost race -/

/-- A server on which the name of a table reaches up to the bracket of its columns, and up to the quote of
    a count. -/
def plainServer (engine : Engine) : TableServer String where
  engine
  nameOf := id
  subject statement :=
    match statement.kind with
    | .query => between " TABLE_NAME = '" "'" statement.text
    | .exec =>
      between (if engine.conditionalCreate then " IF NOT EXISTS " else "CREATE TABLE ") " (" statement.text
  column := ""
  refusal name := "There is already a table " ++ name
where
  /-- The text between the first occurrence of one mark and that of another behind it. -/
  between (left right text : String) : String :=
    let behind := ((Text.cut? left.toList text.toList).map (·.2)).getD []
    String.ofList (((Text.cut? right.toList behind).map (·.1)).getD [])

def usersMigration : Migration where
  table := "users"
  fields := some [{ name := "id", type := "INT" }]

theorem reads_usersMigration : (plainServer .mssql).Reads usersMigration := by
  constructor
  · intro _
    decide +kernel
  · decide +kernel

/-- Two migrators of the same table both find it missing; the second one to create it is refused, and both
    succeed. -/
theorem concurrent_migrators_lostRace :
    let v := plainServer .mssql
    let lists := [[usersMigration], [usersMigration]]
    ∃ n p, Pool.Reaches v (Pool.start v lists []) n p ∧ (∀ session ∈ p.sessions, session.Succeeded) ∧
      p.tables = [v.tableOf usersMigration] ∧ n ≤ 3 * lists.flatten.length ∧ Pool.Safe v lists [] p := by
  intro v lists
  let s := v.engine.planStep usersMigration
  let t := v.tableOf usersMigration
  have hreads : v.Reads usersMigration := reads_usersMigration
  have hquery : s.existsQuery ≠ "" := by decide +kernel
  have hstart : Pool.start v lists [] =
      ⟨[.ask s.query (s.afterCount []), .ask s.query (s.afterCount [])], []⟩ := by
    have : migrate [s] = .ask s.query (s.afterCount []) := by rw [migrate_cons, if_neg hquery]
    show Pool.mk [migrate [s], migrate [s]] [] = _
    rw [this]
  have hnone : ∀ name : String, countTables name [] < Number.signedLimit := fun _ =>
    show 0 < Number.signedLimit by decide
  have hcount : s.afterCount [] (v.perform s.query []).1 = s.creating [] := by
    rw [PlanStep.afterCount, (TableServer.perform_query hreads hnone hquery).1]
    rfl
  have hcreate : v.perform s.creation [] = (noRows, [t]) :=
    TableServer.perform_creation_eq hreads []
  have hrefuse : v.perform s.creation [t] =
      (.error (.database .mssql 2714 (v.refusal (v.nameOf usersMigration.table))), [t]) := by
    have hthere : countTables (v.nameOf usersMigration.table) [t] ≠ 0 :=
      Nat.ne_of_gt (countTables_pos_iff.2 ⟨t, List.mem_singleton_self t, rfl⟩)
    exact (TableServer.perform_creation_eq hreads [t]).trans (if_neg hthere)
  have hpass : s.afterCreate [] (v.perform s.creation []).1 = s.passing true [] := by
    rw [hcreate]
    rfl
  have hlose : s.afterCreate [] (v.perform s.creation [t]).1 = s.passing false [] := by
    rw [hrefuse]
    simp only [PlanStep.afterCreate, execOf, Except.map, Except.mapError, isTableExists_refused,
      if_true]
  -- Both count, then both create, then both report.
  have hreaches : Pool.Reaches v (Pool.start v lists []) 6 ⟨[.done (.ok ()), .done (.ok ())], [t]⟩ := by
    rw [hstart]
    have h₁ := Pool.Moves.ask (v := v) [] [.ask s.query (s.afterCount [])] s.query (s.afterCount []) []
    have h₂ := Pool.Moves.ask (v := v) [s.creating []] [] s.query (s.afterCount []) []
    have h₃ := Pool.Moves.ask (v := v) [] [s.creating []] s.creation (s.afterCreate []) []
    have h₄ := Pool.Moves.ask (v := v) [s.passing true []] [] s.creation (s.afterCreate []) [t]
    rw [hcount] at h₁ h₂
    rw [hpass, hcreate] at h₃
    rw [hlose, hrefuse] at h₄
    exact (((((Pool.Reaches.start.move h₁).move h₂).move h₃).move h₄).move
      (.log [] [s.passing false []] _ (migrate []) [t])).move (.log [migrate []] [] _ (migrate []) [t])
  have hsafe := concurrent_migrators_safe v lists [] (by simpa [lists] using hreads) hnone hreaches
  exact ⟨6, _, hreaches, by simp [Session.Succeeded], rfl, hsafe⟩

end ServiceCompiler
