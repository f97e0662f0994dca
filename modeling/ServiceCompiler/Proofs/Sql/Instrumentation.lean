import ServiceCompiler.Sql.Migrator
import ServiceCompiler.Sql.Monitor
import ServiceCompiler.Sql.Scripted
import Mathlib.Data.List.Induction

namespace ServiceCompiler

open ScriptedDatabase DatabaseRun Session List

/-!
# Instrumented drivers

A driver whose statements are counted answers like the plain one, and its counts are those of the
statements it was given.

* `DriverCall` is a call of a driver, `runCalls` a sequence of them on an executor.
* `Session.attempts` lists the statements that a session hands to its executor, with the replies.
* `Executor.instrumented` is the monitored executor whose hook has a state of its own.
* `run_instrumented` — a session on the instrumented executor, in terms of the plain run and its
  attempts; `runCalls_instrumented` is the same for a sequence of calls.
* `CountsExactly` — what the counts and the hook say about a list of attempts.
-/

/-! ### Calls of a driver -/

/-- What a driver is asked for. -/
inductive DriverTask where
  | exec (text : String)
  | count (text : String)
  | query (text : String)
  | migrate (migrations : List Migration)

structure DriverCall where
  task : DriverTask
  /-- Whether the call was stopped before it began. -/
  stopped : Bool := false

/-- What a call gives. -/
inductive DriverAnswer where
  | done (outcome : Except Failure Unit)
  | number (outcome : Except Failure Int)
  | rows (outcome : Except Failure ResultSet)

/-- The work of a call. -/
def DriverTask.session (engine : Engine) : DriverTask → Session DriverAnswer
  | .exec text => (Session.exec text).bind (.done ∘ .done)
  | .count text => (Session.count text).bind (.done ∘ .number)
  | .query text => (Session.query text).bind (.done ∘ .rows)
  | .migrate migrations => (ServiceCompiler.migrate (engine.plan migrations)).bind (.done ∘ .done)

/-- Makes calls one after the other.  The executor of a call depends on whether it was stopped. -/
def runCalls {σ : Type} (engine : Engine) (e : Bool → Executor σ) :
    List DriverCall → σ → List DriverAnswer × σ
  | [], s => ([], s)
  | c :: rest, s =>
    let (answer, s') := (c.task.session engine).run (e c.stopped) s
    let (answers, s'') := runCalls engine e rest s'
    (answer :: answers, s'')

/-! ### Attempts -/

/-- A statement that was handed to an executor, and its reply. -/
structure Attempt where
  statement : Statement
  reply : Reply

namespace Attempt

/-- Whether the statement was a query. -/
def isQuery (a : Attempt) : Bool := a.statement.kind == .query

/-- Whether the statement was one without result. -/
def isExec (a : Attempt) : Bool := a.statement.kind == .exec

/-- Whether the execution of the statement reported an error.  That no number can be read from its rows
    later is none. -/
def failed (a : Attempt) : Bool :=
  match a.reply.outcome with
  | .error _ => true
  | .ok _ => false

/-- Whether the statement took longer than a threshold. -/
def isSlow (threshold : Number.Duration) (a : Attempt) : Bool := a.reply.duration > threshold

end Attempt

/-- The statements that a session hands to an executor, in order. -/
def Session.attempts {σ α : Type} (e : Executor σ) : Session α → σ → List Attempt
  | .done _, _ => []
  | .log record next, s => next.attempts e (e.log record s)
  | .ask statement next, s =>
    let (reply, s') := e.perform statement s
    ⟨statement, reply⟩ :: (next reply.outcome).attempts e s'

/-- The statements of a sequence of calls, call by call. -/
def callAttempts {σ : Type} (engine : Engine) (e : Bool → Executor σ) :
    List DriverCall → σ → List (DriverCall × List Attempt)
  | [], _ => []
  | c :: rest, s =>
    let session := c.task.session engine
    (c, session.attempts (e c.stopped) s) ::
      callAttempts engine e rest (session.run (e c.stopped) s).2

/-! ### The instrumented executor -/

section

variable {σ η : Type}

/-- An executor next to a state that it leaves alone. -/
def Executor.beside (η : Type) (e : Executor σ) : Executor (σ × η) where
  perform statement s :=
    let (reply, s') := e.perform statement s.1
    (reply, (s', s.2))
  log record s := (e.log record s.1, s.2)

/-- The monitored executor whose hook works on a state of its own. -/
def Executor.instrumented (threshold : Number.Duration) (hook : String → Number.Duration → η → η)
    (e : Executor σ) : Executor ((σ × η) × Statistics) :=
  (e.beside η).monitored { threshold, onSlow := fun text duration s => (s.1, hook text duration s.2) }

variable (threshold : Number.Duration) (hook : String → Number.Duration → η → η)

/-- The counts after a list of attempts. -/
def Statistics.recordAll (s : Statistics) (attempts : List Attempt) : Statistics :=
  attempts.foldl (fun s a => s.record a.statement.kind a.reply (a.isSlow threshold)) s

/-- The state of the hook after a list of attempts: it was called for the slow ones, in order. -/
def hookAll (h : η) (attempts : List Attempt) : η :=
  (attempts.filter (·.isSlow threshold)).foldl
    (fun h a => hook a.statement.text a.reply.duration h) h

theorem hookAll_cons (h : η) (a : Attempt) (attempts : List Attempt) :
    hookAll threshold hook h (a :: attempts) =
      hookAll threshold hook
        (if a.isSlow threshold then hook a.statement.text a.reply.duration h else h) attempts := by
  unfold hookAll
  by_cases hslow : a.isSlow threshold <;> simp [hslow]

theorem hookAll_append (h : η) (as bs : List Attempt) :
    hookAll threshold hook h (as ++ bs) =
      hookAll threshold hook (hookAll threshold hook h as) bs := by
  simp [hookAll]

/-- **One statement.** The reply is that of the plain executor, whose state goes on as without the
    monitor; beside it the statement is recorded, and the hook is called if it was slow. -/
theorem perform_instrumented (e : Executor σ) (statement : Statement) (s : σ) (h : η)
    (counts : Statistics) :
    let attempt : Attempt := ⟨statement, (e.perform statement s).1⟩
    (e.instrumented threshold hook).perform statement ((s, h), counts) =
      (attempt.reply,
        (((e.perform statement s).2,
            if attempt.isSlow threshold then hook statement.text attempt.reply.duration h else h),
          counts.record statement.kind attempt.reply (attempt.isSlow threshold))) := by
  intro attempt
  by_cases hslow : (e.perform statement s).1.duration > threshold
  · simp [Executor.instrumented, Executor.monitored, Executor.beside, Attempt.isSlow, attempt, hslow]
  · simp [Executor.instrumented, Executor.monitored, Executor.beside, Attempt.isSlow, attempt, hslow]

/-- **A session** on the instrumented executor: the result and the state of the plain run, and the
    attempts of that run recorded. -/
theorem run_instrumented {α : Type} (e : Executor σ) (x : Session α) (s : σ) (h : η)
    (counts : Statistics) :
    x.run (e.instrumented threshold hook) ((s, h), counts) =
      ((x.run e s).1,
        (((x.run e s).2, hookAll threshold hook h (x.attempts e s)),
          counts.recordAll threshold (x.attempts e s))) := by
  induction x generalizing s h counts with
  | done a => rfl
  | log record next ih => exact ih (e.log record s) h counts
  | ask statement next ih =>
    -- The plain executor and the instrumented one give the same reply, so both sessions go on alike.
    rw [run]
    simp only [perform_instrumented, ih, run, attempts, hookAll_cons,
      Statistics.recordAll, foldl_cons]

/-- A session hands the same statements to the instrumented executor and gets the same replies. -/
theorem attempts_instrumented {α : Type} (e : Executor σ) (x : Session α) (s : σ) (h : η)
    (counts : Statistics) :
    x.attempts (e.instrumented threshold hook) ((s, h), counts) = x.attempts e s := by
  induction x generalizing s h counts with
  | done a => rfl
  | log record next ih => exact ih (e.log record s) h counts
  | ask statement next ih =>
    rw [attempts]
    simp only [perform_instrumented, ih, attempts]

/-- **A sequence of calls** on the instrumented executor. -/
theorem runCalls_instrumented (engine : Engine) (e : Bool → Executor σ) (calls : List DriverCall) (s : σ)
    (h : η) (counts : Statistics) :
    let attempts := (callAttempts engine e calls s).flatMap (·.2)
    runCalls engine (fun stopped => (e stopped).instrumented threshold hook) calls ((s, h), counts) =
      ((runCalls engine e calls s).1,
        (((runCalls engine e calls s).2, hookAll threshold hook h attempts),
          counts.recordAll threshold attempts)) := by
  induction calls generalizing s h counts with
  | nil => rfl
  | cons c rest ih =>
    simp only [runCalls, run_instrumented, ih, callAttempts, flatMap_cons, hookAll_append,
      Statistics.recordAll, foldl_append]

theorem callAttempts_instrumented (engine : Engine) (e : Bool → Executor σ) (calls : List DriverCall)
    (s : σ) (h : η) (counts : Statistics) :
    callAttempts engine (fun stopped => (e stopped).instrumented threshold hook) calls
      ((s, h), counts) = callAttempts engine e calls s := by
  induction calls generalizing s h counts with
  | nil => rfl
  | cons c rest ih => simp only [callAttempts, attempts_instrumented, run_instrumented, ih]

end

/-! ### Counts -/

/-- **What the counts say** of the attempts that were recorded, from nothing on. -/
structure CountsExactly (threshold : Number.Duration) (attempts : List Attempt) (counts : Statistics) :
    Prop where
  queries : counts.queries = attempts.countP Attempt.isQuery
  execs : counts.execs = attempts.countP Attempt.isExec
  errors : counts.errors = attempts.countP Attempt.failed
  slow : counts.slow = attempts.countP (Attempt.isSlow threshold)

/-- One more attempt on the counts. -/
theorem CountsExactly.concat {threshold : Number.Duration} {attempts : List Attempt}
    {counts : Statistics} (h : CountsExactly threshold attempts counts) (a : Attempt) :
    CountsExactly threshold (attempts ++ [a])
      (counts.record a.statement.kind a.reply (a.isSlow threshold)) := by
  obtain ⟨⟨kind, text⟩, outcome, duration⟩ := a
  constructor
  · cases kind <;> simp [Statistics.record, Attempt.isQuery, h.queries]
  · cases kind <;> simp [Statistics.record, Attempt.isExec, h.execs]
  · cases outcome <;> simp [Statistics.record, Attempt.failed, h.errors]
  · by_cases hslow : Attempt.isSlow threshold ⟨⟨kind, text⟩, outcome, duration⟩ <;>
      simp [Statistics.record, hslow, h.slow]

theorem countsExactly_recordAll (threshold : Number.Duration) (attempts : List Attempt) :
    CountsExactly threshold attempts (({} : Statistics).recordAll threshold attempts) := by
  induction attempts using reverseRecOn with
  | nil => exact ⟨rfl, rfl, rfl, rfl⟩
  | append_singleton attempts a ih =>
    rw [Statistics.recordAll, foldl_append]
    exact ih.concat a

/-! ### Scripted databases -/

namespace ScriptedDatabase

/-- The reply to the statement with this number, counted from zero. -/
def reply (d : ScriptedDatabase) (n : Nat) : Reply := d.script.getD n defaultReply

/-- The database after it answered a number of statements. -/
def received (d : ScriptedDatabase) (statements : List Statement) : ScriptedDatabase :=
  { d with
    script := d.script.drop statements.length
    statements := d.statements ++ statements }

theorem received_received (d : ScriptedDatabase) (xs ys : List Statement) :
    (d.received xs).received ys = d.received (xs ++ ys) := by
  simp [received]

theorem reply_received (d : ScriptedDatabase) (xs : List Statement) (n : Nat) :
    (d.received xs).reply n = d.reply (xs.length + n) := by
  simp [reply, received, getD_eq_getElem?_getD, getElem?_drop]

end ScriptedDatabase

/-- The attempts that reach a database from a script on are answered by it in order. -/
def AnsweredBy (d : ScriptedDatabase) (attempts : List Attempt) : Prop :=
  attempts.map Attempt.reply = (range attempts.length).map d.reply

theorem AnsweredBy.append {d : ScriptedDatabase} {as bs : List Attempt} (has : AnsweredBy d as)
    (hbs : AnsweredBy (d.received (as.map Attempt.statement)) bs) : AnsweredBy d (as ++ bs) := by
  have hshift : (d.received (as.map Attempt.statement)).reply = fun n => d.reply (as.length + n) := by
    funext n
    rw [reply_received, length_map]
  unfold AnsweredBy at has hbs ⊢
  rw [map_append, has, hbs, hshift, length_append, range_add, map_append, map_map]
  rfl

/-- **A session on an open database.** The statements are received in order and answered by the
    script. -/
theorem run_open {α : Type} (x : Session α) (r : DatabaseRun) (hopen : r.database.closed = false) :
    let attempts := x.attempts (executor false) r
    (x.run (executor false) r).2.database =
        r.database.received (attempts.map Attempt.statement) ∧
      AnsweredBy r.database attempts := by
  induction x generalizing r with
  | done a => exact ⟨by simp [attempts, run, received], rfl⟩
  | log record next ih => exact ih _ hopen
  | ask statement next ih =>
    -- The first statement takes the head of the script; the others find its tail.
    have hanswer : r.database.answer false statement =
        (r.database.reply 0, r.database.received [statement]) := by
      have hhead : r.database.script.headD defaultReply = r.database.reply 0 := by
        rw [reply]
        cases r.database.script <;> rfl
      rw [answer, hopen, hhead]
      simp [received, hopen]
    have hperform : (executor false).perform statement r =
        (r.database.reply 0, { r with database := r.database.received [statement] }) := by
      simp only [executor, hanswer]
    obtain ⟨hdatabase, hreplies⟩ := ih (r.database.reply 0).outcome
      { r with database := r.database.received [statement] } hopen
    simp only [run, attempts, hperform]
    refine ⟨?_, ?_⟩
    · rw [hdatabase, received_received]
      rfl
    · have hfirst : AnsweredBy r.database [⟨statement, r.database.reply 0⟩] := rfl
      exact hfirst.append hreplies

/-- A session that was stopped before reaches no database. -/
theorem run_stopped {α : Type} (x : Session α) (r : DatabaseRun) :
    (x.run (executor true) r).2.database = r.database := by
  induction x generalizing r with
  | done a => rfl
  | log record next ih => exact ih _
  | ask statement next ih =>
    have hanswer : (r.database.answer true statement).2 = r.database := by
      unfold answer
      split <;> rfl
    rw [run]
    exact (ih _ _).trans hanswer

/-- The statements of the calls that were not stopped. -/
def sentAttempts (runs : List (DriverCall × List Attempt)) : List Attempt :=
  (runs.filter fun r => !r.1.stopped).flatMap (·.2)

/-- **A sequence of calls on an open database.** It receives the statements of the calls that were not
    stopped, in order, and answers them by its script. -/
theorem runCalls_open (engine : Engine) (calls : List DriverCall) (r : DatabaseRun)
    (hopen : r.database.closed = false) :
    let sent := sentAttempts (callAttempts engine executor calls r)
    (runCalls engine executor calls r).2.database =
        r.database.received (sent.map Attempt.statement) ∧
      AnsweredBy r.database sent := by
  induction calls generalizing r with
  | nil => exact ⟨by simp [runCalls, callAttempts, sentAttempts, received], rfl⟩
  | cons c rest ih =>
    obtain ⟨task, stopped⟩ := c
    cases stopped with
    | true =>
      have hsame := run_stopped (task.session engine) r
      have hrest := ih ((task.session engine).run (executor true) r).2 (by rw [hsame, hopen])
      rw [hsame] at hrest
      simpa [runCalls, callAttempts, sentAttempts] using hrest
    | false =>
      obtain ⟨hdatabase, hreplies⟩ := run_open (task.session engine) r hopen
      have hrest := ih ((task.session engine).run (executor false) r).2
        (by rw [hdatabase]; exact hopen)
      rw [hdatabase] at hrest
      refine ⟨?_, ?_⟩
      · simpa [runCalls, callAttempts, sentAttempts, received_received] using hrest.1
      · simpa [callAttempts, sentAttempts] using hreplies.append hrest.2

/-- **Instrumentation does not show, and it counts exactly.**  Whatever the script of replies, the calls,
    the threshold and the hook are, the instrumented driver attempts the statements of the plain one and
    gets their replies, gives the same answers and leaves the database and the log as the plain one does.
    The database received the statements of the calls that were not stopped, in order, and answered them
    by its script.  The counts are those of the attempts, and the hook was called for the slow ones, in
    order. -/
theorem instrumented_runsAlike_and_counts (engine : Engine) (script : List Reply)
    (calls : List DriverCall) (threshold : Number.Duration) {η : Type}
    (hook : String → Number.Duration → η → η) (h : η) :
    let instrumented := fun stopped => (DatabaseRun.executor stopped).instrumented threshold hook
    let start : DatabaseRun := { database := { script } }
    let plain := runCalls engine DatabaseRun.executor calls start
    let watched := runCalls engine instrumented calls ((start, h), {})
    let runs := callAttempts engine instrumented calls ((start, h), {})
    let attempts := runs.flatMap (·.2)
    let sent := sentAttempts runs
    (watched.1 = plain.1 ∧ watched.2.1.1 = plain.2 ∧
        runs = callAttempts engine DatabaseRun.executor calls start) ∧
      (watched.2.1.1.database.statements = sent.map Attempt.statement ∧ AnsweredBy start.database sent) ∧
      CountsExactly threshold attempts watched.2.2 ∧
      watched.2.1.2 = hookAll threshold hook h attempts := by
  intro instrumented start plain watched runs attempts sent
  have hruns : runs = callAttempts engine DatabaseRun.executor calls start :=
    callAttempts_instrumented threshold hook engine DatabaseRun.executor calls start h {}
  have hwatched : watched = (plain.1, ((plain.2, hookAll threshold hook h attempts),
      ({} : Statistics).recordAll threshold attempts)) := by
    have hcalls := runCalls_instrumented threshold hook engine DatabaseRun.executor calls start h {}
    rw [← hruns] at hcalls
    exact hcalls
  have hscript := runCalls_open engine calls start rfl
  rw [← hruns] at hscript
  rw [hwatched]
  refine ⟨⟨rfl, rfl, hruns⟩, ⟨?_, hscript.2⟩, countsExactly_recordAll threshold attempts, rfl⟩
  show plain.2.database.statements = _
  rw [hscript.1]
  simp [ScriptedDatabase.received, start, sent]

end ServiceCompiler
