import ServiceCompiler.Log
import ServiceCompiler.Sql.Result

namespace ServiceCompiler

/-!
# Database sessions

A session is a piece of work on a database: it issues statements one at a time, goes on by what each
of them gave, and reports to the log.

* `Session.exec`, `Session.query`, `Session.count` issue one statement.
* `Executor` is what a session runs on; `Session.run` runs it.
-/

/-- How a statement is issued. -/
inductive StatementKind where
  | exec
  | query
  deriving DecidableEq, Repr

structure Statement where
  kind : StatementKind
  text : String
  deriving DecidableEq, Repr

/-- What a statement gave, and how long it took. -/
structure Reply where
  outcome : Except Failure ResultSet
  duration : Number.Duration

/-- Work on a database. -/
inductive Session (α : Type) where
  /-- The work is finished. -/
  | done (a : α)
  /-- Reports to the log. -/
  | log (record : LogRecord) (next : Session α)
  /-- Issues a statement. -/
  | ask (statement : Statement) (next : Except Failure ResultSet → Session α)

namespace Session

/-- One session after the other. -/
def bind {α β : Type} : Session α → (α → Session β) → Session β
  | .done a, f => f a
  | .log record next, f => .log record (next.bind f)
  | .ask statement next, f => .ask statement fun outcome => (next outcome).bind f

instance : Monad Session where
  pure := .done
  bind := bind

def report (record : LogRecord) : Session Unit := .log record (.done ())

/-- Issues a statement without result. -/
def exec (text : String) : Session (Except Failure Unit) :=
  .ask ⟨.exec, text⟩ fun outcome =>
    .done ((outcome.map fun _ => ()).mapError (.within "dialect/sql: exec"))

/-- Issues a query. -/
def query (text : String) : Session (Except Failure ResultSet) := .ask ⟨.query, text⟩ .done

/-- Issues a query for a number. -/
def count (text : String) : Session (Except Failure Int) :=
  .ask ⟨.query, text⟩ fun outcome =>
    .done ((outcome.bind fun r => r.toCount.mapError .other).mapError (.within "dialect/sql: query"))

end Session

/-- What sessions run on: something with a state that performs statements and keeps a log. -/
structure Executor (σ : Type) where
  perform : Statement → σ → Reply × σ
  log : LogRecord → σ → σ

def Session.run {σ α : Type} (e : Executor σ) : Session α → σ → α × σ
  | .done a, s => (a, s)
  | .log record next, s => next.run e (e.log record s)
  | .ask statement next, s =>
    let (reply, s') := e.perform statement s
    (next reply.outcome).run e s'

/-! ### Small laws -/

end ServiceCompiler
