import ServiceCompiler.Sql.Migrator
import ServiceCompiler.Sql.Scripted

namespace ServiceCompiler

open List Session ScriptedDatabase

/-!
# Migration runs

What a migrator issues, and how it ends, for whatever the database replies.

* `migrate_cons` — the migrator as a tree of statements, one step of the plan at a time.
* `StepRun` — what was issued for one step and what it gave; `StepRun.Regular` says what is issued,
  `StepRun.FailsWith` when the step fails.
* `FollowsPlan` — the account of a whole run; every run on every executor has one
  (`exists_followsPlan`), and on a scripted database it is an account of the statements received and the
  replies taken (`scripted_followsPlan`).
-/

/-! ### The migrator as a tree -/

/-- The number that the outcome of a query gives. -/
def countOf (outcome : Except Failure ResultSet) : Except Failure Int :=
  (outcome.bind fun r => r.toCount.mapError .other).mapError (.within "dialect/sql: query")

/-- What the outcome of a statement without result says. -/
def execOf (outcome : Except Failure ResultSet) : Except Failure Unit :=
  (outcome.map fun _ => ()).mapError (.within "dialect/sql: exec")

namespace PlanStep

def query (s : PlanStep) : Statement := ⟨.query, s.existsQuery⟩

def creation (s : PlanStep) : Statement := ⟨.exec, s.create⟩

/-- The end of a migration at a step that failed. -/
def failing (s : PlanStep) (f : Failure) : Session (Except Failure Unit) :=
  .log
    { level := .error, message := "migration failed"
      attributes := [("table", .text s.table), ("error", .failure f)] }
    (.done (.error (.migration s.table f)))

/-- The migration behind a step that did not fail. -/
def passing (s : PlanStep) (applied : Bool) (rest : List PlanStep) : Session (Except Failure Unit) :=
  .log
    { level := .info, message := "migrated table"
      attributes := [("table", .text s.table), ("applied", .flag applied), ("duration", .elapsed)] }
    (migrate rest)

/-- The migration behind the statement that creates the table of a step. -/
def afterCreate (s : PlanStep) (rest : List PlanStep) (outcome : Except Failure ResultSet) :
    Session (Except Failure Unit) :=
  match execOf outcome with
  | .ok () => s.passing true rest
  | .error f => if f.isTableExists then s.passing false rest else s.failing f

/-- The migration from the statement on that creates the table of a step. -/
def creating (s : PlanStep) (rest : List PlanStep) : Session (Except Failure Unit) :=
  .ask s.creation (s.afterCreate rest)

/-- The migration behind the query of a step. -/
def afterCount (s : PlanStep) (rest : List PlanStep) (outcome : Except Failure ResultSet) :
    Session (Except Failure Unit) :=
  match countOf outcome with
  | .error f => s.failing f
  | .ok n => if n > 0 then s.passing false rest else s.creating rest

end PlanStep

/-- What follows once it is known whether a step was applied. -/
private def afterApply (s : PlanStep) (rest : List PlanStep) :
    Except Failure Bool → Session (Except Failure Unit)
  | .error f => s.failing f
  | .ok applied => s.passing applied rest

private theorem create?_bind (s : PlanStep) (rest : List PlanStep) :
    s.create?.bind (afterApply s rest) = s.creating rest := by
  show ask s.creation _ = ask s.creation _
  congr 1
  funext outcome
  cases outcome with
  | ok r => rfl
  | error f =>
    show Session.bind (Session.done (if _ then _ else _)) _ = ite _ _ _
    split <;> rfl

private theorem migrate_cons_eq_bind (s : PlanStep) (rest : List PlanStep) :
    migrate (s :: rest) = s.apply.bind (afterApply s rest) := by
  rw [migrate]
  rfl

/-- **One step of the migrator.** The query comes first, where there is one, and what it gave decides on
    the statement that creates the table. -/
theorem migrate_cons (s : PlanStep) (rest : List PlanStep) :
    migrate (s :: rest) =
      if s.existsQuery = "" then s.creating rest else .ask s.query (s.afterCount rest) := by
  rw [migrate_cons_eq_bind, PlanStep.apply]
  split
  · exact create?_bind s rest
  · show ask s.query _ = ask s.query _
    congr 1
    funext outcome
    show Session.bind (match countOf outcome with
      | .error f => Session.done (.error f)
      | .ok n => if n > 0 then Session.done (.ok false) else s.create?) _ = s.afterCount rest outcome
    rw [PlanStep.afterCount]
    cases countOf outcome with
    | error f => rfl
    | ok n =>
      show Session.bind (ite _ _ _) _ = ite _ _ _
      split
      · rfl
      · exact create?_bind s rest

/-! ### What is issued -/

/-- A statement that was issued and what it gave. -/
structure Exchange where
  statement : Statement
  outcome : Except Failure ResultSet

/-- The statements that a session issues on an executor, in order. -/
def Session.exchanges {σ α : Type} (e : Executor σ) : Session α → σ → List Exchange
  | .done _, _ => []
  | .log record next, s => next.exchanges e (e.log record s)
  | .ask statement next, s =>
    let (reply, s') := e.perform statement s
    ⟨statement, reply.outcome⟩ :: (next reply.outcome).exchanges e s'

/-- What was issued for a step: the outcomes of its query and of the statement that creates its table,
    where they were issued. -/
structure StepRun where
  step : PlanStep
  counted : Option (Except Failure ResultSet)
  created : Option (Except Failure ResultSet)

namespace StepRun

/-- The statements of a step, with what they gave. -/
def exchanges (r : StepRun) : List Exchange :=
  (r.counted.map (Exchange.mk r.step.query)).toList
    ++ (r.created.map (Exchange.mk r.step.creation)).toList

/-- What has to be issued for a step: its query when it has one, and the statement that creates the
    table when there is no query or the query counted no table. -/
structure Regular (r : StepRun) : Prop where
  counted_iff : r.counted.isSome ↔ r.step.existsQuery ≠ ""
  created_iff : r.created.isSome ↔
    r.step.existsQuery = "" ∨ ∃ o n, r.counted = some o ∧ countOf o = .ok n ∧ n ≤ 0

/-- A step fails when its query gives no number, or when its table cannot be created for another reason
    than that it exists. -/
inductive FailsWith (r : StepRun) : Failure → Prop
  | count {o : Except Failure ResultSet} {f : Failure} :
    r.counted = some o → countOf o = .error f → r.FailsWith f
  | create {o : Except Failure ResultSet} {f : Failure} :
    r.created = some o → execOf o = .error f → f.isTableExists = false → r.FailsWith f

def Fails (r : StepRun) : Prop := ∃ f, r.FailsWith f

end StepRun

/-- **The account of a migration.** The steps that were taken are the first ones of the plan, and
    something was issued for each of them only as it has to be.  A step that fails is the last one; all
    steps are taken when none fails.  The result tells whether one failed, which, and why. -/
structure FollowsPlan (plan : List PlanStep) (runs : List StepRun) (result : Except Failure Unit) :
    Prop where
  steps : runs.map StepRun.step <+: plan
  regular : ∀ r ∈ runs, r.Regular
  stops : ∀ before r after, runs = before ++ r :: after → r.Fails → after = []
  complete : (∀ r ∈ runs, ¬ r.Fails) → runs.map StepRun.step = plan
  ok_iff : result = .ok () ↔ ∀ r ∈ runs, ¬ r.Fails
  error_iff : ∀ f, result = .error f ↔
    ∃ before r cause, runs = before ++ [r] ∧ r.FailsWith cause ∧ f = .migration r.step.table cause

/-- A query that gives no number keeps the table from being created. -/
theorem StepRun.Regular.created_eq_none {r : StepRun} (hr : r.Regular) {o : Except Failure ResultSet}
    {f : Failure} (ho : r.counted = some o) (hf : countOf o = .error f) : r.created = none := by
  have hquery : r.step.existsQuery ≠ "" := hr.counted_iff.1 (by rw [ho]; rfl)
  rw [← Option.not_isSome_iff_eq_none, hr.created_iff]
  rintro (hempty | ⟨o', n, ho', hn, -⟩)
  · exact hquery hempty
  · obtain rfl : o = o' := Option.some.inj (ho.symm.trans ho')
    rw [hf] at hn
    cases hn

/-- A step fails for one reason. -/
theorem StepRun.Regular.failsWith_unique {r : StepRun} (hr : r.Regular) {f g : Failure}
    (hf : r.FailsWith f) (hg : r.FailsWith g) : f = g := by
  cases hf with
  | count ho hf =>
    cases hg with
    | count ho' hg =>
      obtain rfl := Option.some.inj (ho.symm.trans ho')
      exact Except.error.inj (hf.symm.trans hg)
    | create ho' hg _ => rw [hr.created_eq_none ho hf] at ho'; cases ho'
  | create ho hf _ =>
    cases hg with
    | count ho' hg => rw [hr.created_eq_none ho' hg] at ho; cases ho
    | create ho' hg _ =>
      obtain rfl := Option.some.inj (ho.symm.trans ho')
      exact Except.error.inj (hf.symm.trans hg)

namespace FollowsPlan

variable {r : StepRun} {rest : List PlanStep} {runs : List StepRun} {result : Except Failure Unit}

theorem nil : FollowsPlan [] [] (.ok ()) where
  steps := prefix_rfl
  regular := by simp
  stops := by simp
  complete _ := rfl
  ok_iff := by simp
  error_iff := by simp

/-- A step that fails ends the account. -/
theorem stop {f : Failure} (hr : r.Regular) (hf : r.FailsWith f) (rest : List PlanStep) :
    FollowsPlan (r.step :: rest) [r] (.error (.migration r.step.table f)) where
  steps := ⟨rest, rfl⟩
  regular := by simpa using hr
  stops before q after h _ := by
    have hlength := congrArg length h
    simp only [length_append, length_cons, length_nil] at hlength
    exact eq_nil_of_length_eq_zero (by omega)
  complete h := absurd ⟨f, hf⟩ (h r (mem_singleton_self r))
  ok_iff := by simpa [StepRun.Fails] using ⟨f, hf⟩
  error_iff g := by
    constructor
    · intro h
      exact ⟨[], r, f, rfl, hf, (Except.error.inj h).symm⟩
    · rintro ⟨before, q, cause, h, hcause, rfl⟩
      obtain ⟨-, rfl⟩ : before = [] ∧ r = q := by
        have happend : [] ++ [r] = before ++ [q] := h
        simpa using append_inj' happend rfl
      rw [hr.failsWith_unique hf hcause]

/-- A step that does not fail comes in front of the account of the others. -/
theorem cons (hr : r.Regular) (hpass : ¬ r.Fails) (h : FollowsPlan rest runs result) :
    FollowsPlan (r.step :: rest) (r :: runs) result where
  steps := cons_prefix_cons.2 ⟨rfl, h.steps⟩
  regular := forall_mem_cons.2 ⟨hr, h.regular⟩
  stops before q after hruns hq := by
    cases before with
    | nil =>
      obtain ⟨rfl, -⟩ := cons.inj hruns
      exact absurd hq hpass
    | cons b before => exact h.stops before q after (cons.inj hruns).2 hq
  complete hnone := congrArg (r.step :: ·) (h.complete fun q hq => hnone q (mem_cons_of_mem r hq))
  ok_iff := by rw [h.ok_iff, forall_mem_cons, and_iff_right hpass]
  error_iff f := by
    rw [h.error_iff]
    constructor
    · rintro ⟨before, q, cause, rfl, hcause, hf⟩
      exact ⟨r :: before, q, cause, rfl, hcause, hf⟩
    · rintro ⟨before, q, cause, hruns, hcause, hf⟩
      cases before with
      | nil =>
        obtain ⟨rfl, -⟩ := cons.inj hruns
        exact absurd ⟨cause, hcause⟩ hpass
      | cons b before => exact ⟨before, q, cause, (cons.inj hruns).2, hcause, hf⟩

end FollowsPlan

/-! ### Steps and runs -/

section

variable {σ : Type} (e : Executor σ)

/-- How a session that is at a step goes on from a state: `issued` was issued for the step before, and
    the account `r` says what is issued in all. -/
def TakesStep (session : Session (Except Failure Unit)) (state : σ) (issued : List Exchange)
    (r : StepRun) (rest : List PlanStep) : Prop :=
  r.Regular ∧
    ((∃ f, r.FailsWith f ∧ issued ++ session.exchanges e state = r.exchanges ∧
        (session.run e state).1 = .error (.migration r.step.table f)) ∨
      (¬ r.Fails ∧ ∃ next, issued ++ session.exchanges e state =
          r.exchanges ++ (migrate rest).exchanges e next ∧
        (session.run e state).1 = ((migrate rest).run e next).1))

/-- The statement that creates the table of a step, issued when nothing was to be counted or no table was
    found. -/
theorem takesStep_creating (s : PlanStep) (rest : List PlanStep) (state : σ)
    (counted : Option (Except Failure ResultSet)) (hcounted : counted.isSome ↔ s.existsQuery ≠ "")
    (hzero : ∀ o, counted = some o → ∃ n, countOf o = .ok n ∧ n ≤ 0) :
    ∃ r, r.step = s ∧
      TakesStep e (s.creating rest) state (counted.map (Exchange.mk s.query)).toList r rest := by
  let outcome := (e.perform s.creation state).1.outcome
  let next := (e.perform s.creation state).2
  let r : StepRun := ⟨s, counted, some outcome⟩
  have hregular : r.Regular := by
    refine ⟨hcounted, iff_of_true rfl ?_⟩
    by_cases hquery : s.existsQuery = ""
    · exact .inl hquery
    · obtain ⟨o, ho⟩ := Option.isSome_iff_exists.1 (hcounted.2 hquery)
      obtain ⟨n, hn, hle⟩ := hzero o ho
      exact .inr ⟨o, n, ho, hn, hle⟩
  -- The query did not fail, so that the step fails only if the statement does.
  have hfails : ∀ f, r.FailsWith f → execOf outcome = .error f ∧ f.isTableExists = false := by
    rintro f (⟨ho, hf⟩ | ⟨ho, hf, hexists⟩)
    · obtain ⟨n, hn, -⟩ := hzero _ ho
      rw [hf] at hn
      cases hn
    · obtain rfl := Option.some.inj ho
      exact ⟨hf, hexists⟩
  have hexchanges : (s.creating rest).exchanges e state =
      ⟨s.creation, outcome⟩ :: (s.afterCreate rest outcome).exchanges e next := rfl
  have hrun : (s.creating rest).run e state = (s.afterCreate rest outcome).run e next := rfl
  refine ⟨r, rfl, hregular, ?_⟩
  rw [hexchanges, hrun, PlanStep.afterCreate]
  cases hexec : execOf outcome with
  | ok u =>
    refine .inr ⟨?_, e.log _ next, ?_, rfl⟩
    · rintro ⟨f, hf⟩
      have := (hfails f hf).1
      rw [hexec] at this
      cases this
    · simp only [StepRun.exchanges, append_assoc]
      rfl
  | error f =>
    cases hexists : f.isTableExists with
    | true =>
      simp only [hexists, if_true]
      refine .inr ⟨?_, e.log _ next, ?_, rfl⟩
      · rintro ⟨g, hg⟩
        obtain ⟨hg, hrejected⟩ := hfails g hg
        rw [hexec] at hg
        obtain rfl := Except.error.inj hg
        rw [hexists] at hrejected
        cases hrejected
      · simp only [StepRun.exchanges, append_assoc]
        rfl
    | false =>
      simp only [hexists, Bool.false_eq_true, if_false]
      exact .inl ⟨f, .create rfl hexec hexists, rfl, rfl⟩

/-- **The step.** What a migrator issues for the first step of a plan is regular; if the step fails,
    nothing follows, and otherwise the migrator goes on with the other steps. -/
theorem takesStep_migrate (s : PlanStep) (rest : List PlanStep) (state : σ) :
    ∃ r, r.step = s ∧ TakesStep e (migrate (s :: rest)) state [] r rest := by
  rw [migrate_cons]
  split
  · rename_i hquery
    exact takesStep_creating e s rest state none (by simpa using hquery) (by simp)
  · rename_i hquery
    let outcome := (e.perform s.query state).1.outcome
    let next := (e.perform s.query state).2
    have hexchanges : (ask s.query (s.afterCount rest)).exchanges e state =
        ⟨s.query, outcome⟩ :: (s.afterCount rest outcome).exchanges e next := rfl
    have hrun : (ask s.query (s.afterCount rest)).run e state =
        (s.afterCount rest outcome).run e next := rfl
    have hcounted : (some outcome).isSome ↔ s.existsQuery ≠ "" := iff_of_true rfl hquery
    simp only [TakesStep, hexchanges, hrun, PlanStep.afterCount]
    cases hcount : countOf outcome with
    | error f =>
      refine ⟨⟨s, some outcome, none⟩, rfl, ⟨hcounted, ?_⟩, .inl ⟨f, .count rfl hcount, rfl, rfl⟩⟩
      refine iff_of_false Bool.false_ne_true ?_
      rintro (h | ⟨o, n, ho, hn, -⟩)
      · exact hquery h
      · obtain rfl := Option.some.inj ho
        rw [hcount] at hn
        cases hn
    | ok n =>
      by_cases hpos : n > 0
      · simp only [hpos, if_true]
        refine ⟨⟨s, some outcome, none⟩, rfl, ⟨hcounted, ?_⟩, .inr ⟨?_, e.log _ next, rfl, rfl⟩⟩
        · refine iff_of_false Bool.false_ne_true ?_
          rintro (h | ⟨o, m, ho, hm, hle⟩)
          · exact hquery h
          · obtain rfl := Option.some.inj ho
            rw [hcount] at hm
            obtain rfl := Except.ok.inj hm
            omega
        · rintro ⟨f, (⟨ho, hf⟩ | ⟨ho, -, -⟩)⟩
          · obtain rfl := Option.some.inj ho
            rw [hcount] at hf
            cases hf
          · cases ho
      · simp only [hpos, if_false]
        exact takesStep_creating e s rest next (some outcome) hcounted (by
          intro o ho
          obtain rfl := Option.some.inj ho
          exact ⟨n, hcount, by omega⟩)

/-- **The run.** On every executor, a migration follows its plan. -/
theorem exists_followsPlan (plan : List PlanStep) (state : σ) :
    ∃ runs, FollowsPlan plan runs ((migrate plan).run e state).1 ∧
      (migrate plan).exchanges e state = runs.flatMap StepRun.exchanges := by
  induction plan generalizing state with
  | nil => exact ⟨[], .nil, rfl⟩
  | cons s rest ih =>
    obtain ⟨r, rfl, hregular, hstep⟩ := takesStep_migrate e s rest state
    rcases hstep with ⟨f, hf, hexchanges, hresult⟩ | ⟨hpass, next, hexchanges, hresult⟩
    · refine ⟨[r], hresult ▸ .stop hregular hf rest, ?_⟩
      simpa using hexchanges
    · obtain ⟨runs, hfollows, hrest⟩ := ih next
      refine ⟨r :: runs, hresult ▸ hfollows.cons hregular hpass, ?_⟩
      rw [flatMap_cons, ← hrest]
      simpa using hexchanges

end

/-! ### Scripted databases -/

/-- The outcome of the statement with this number, counted from zero. -/
def ScriptedDatabase.outcome (d : ScriptedDatabase) (n : Nat) : Except Failure ResultSet :=
  (d.script.getD n defaultReply).outcome

/-- A database that answers from a script receives what is issued and replies by the script. -/
theorem run_scripted {α : Type} (x : Session α) (d : DatabaseRun) (hopen : d.database.closed = false) :
    let issued := x.exchanges (DatabaseRun.executor false) d
    (x.run (DatabaseRun.executor false) d).2.database.statements =
        d.database.statements ++ issued.map Exchange.statement ∧
      issued.map Exchange.outcome = (range issued.length).map d.database.outcome := by
  induction x generalizing d with
  | done a => simp [exchanges, run]
  | log record next ih => exact ih _ hopen
  | ask statement next ih =>
    obtain ⟨⟨script, closed, statements⟩, log⟩ := d
    obtain rfl : closed = false := hopen
    obtain ⟨hstatements, houtcomes⟩ := ih (script.headD defaultReply).outcome
      ⟨⟨script.tail, false, statements ++ [statement]⟩, log⟩ rfl
    -- The reply to the first statement is the head of the script; the others come from its tail.
    have hhead : (script.headD defaultReply).outcome =
        outcome ⟨script, false, statements⟩ 0 := by
      cases script <;> rfl
    have htail : outcome ⟨script.tail, false, statements ++ [statement]⟩ =
        fun n => outcome ⟨script, false, statements⟩ (n + 1) := by
      cases script <;> rfl
    refine ⟨?_, ?_⟩
    · exact hstatements.trans (append_assoc _ _ _)
    · show _ :: map _ _ = map _ (range (_ + 1))
      rw [houtcomes, range_succ_eq_map, map_cons, map_map, htail]
      exact congrArg (· :: _) hhead

/-- **Migrations follow their plan.** For every engine, list of migrations and script of replies there is
    an account of the run by which the statements received are those of the steps taken, in the order of
    the plan, and what they gave are the replies of the script, in order. -/
theorem scripted_followsPlan (engine : Engine) (migrations : List Migration) (script : List Reply) :
    let database : ScriptedDatabase := { script }
    let finished := (migrate (engine.plan migrations)).run (DatabaseRun.executor false) { database }
    ∃ runs, FollowsPlan (engine.plan migrations) runs finished.1 ∧
      let issued := runs.flatMap StepRun.exchanges
      finished.2.database.statements = issued.map Exchange.statement ∧
      issued.map Exchange.outcome = (List.range issued.length).map database.outcome := by
  intro database finished
  obtain ⟨runs, hfollows, hissued⟩ :=
    exists_followsPlan (DatabaseRun.executor false) (engine.plan migrations) { database }
  have hscript := run_scripted (migrate (engine.plan migrations)) { database } rfl
  rw [hissued] at hscript
  exact ⟨runs, hfollows, hscript⟩

end ServiceCompiler
