import ServiceCompiler.Sql.Session

namespace ServiceCompiler

/-!
# Monitoring statements

A monitor counts the statements that pass through it and points out the slow ones.  Sessions run on a
monitored executor as on the one below it.
-/

/-- Counts of statements; all numbers have 64 bits. -/
structure Statistics where
  queries : Int := 0
  execs : Int := 0
  duration : Number.Duration := 0
  slow : Int := 0
  errors : Int := 0
  deriving DecidableEq, Repr

namespace Statistics

/-- A number in 64 bits. -/
def wrap (n : Int) : Int := n.bmod Number.wordSize

/-- The mean duration of a statement, zero without statements. -/
def mean (s : Statistics) : Number.Duration :=
  let total := wrap (s.queries + s.execs)
  if total = 0 then 0 else wrap (s.duration.tdiv total)

/-- The text of the counts. -/
def text (s : Statistics) : String :=
  "queries=" ++ Text.decimalInt s.queries ++ " execs=" ++ Text.decimalInt s.execs
    ++ " duration=" ++ s.duration.text ++ " avg=" ++ s.mean.text
    ++ " slow=" ++ Text.decimalInt s.slow ++ " errors=" ++ Text.decimalInt s.errors

/-- The counts after one more statement. -/
def record (s : Statistics) (kind : StatementKind) (reply : Reply) (isSlow : Bool) : Statistics where
  queries := if kind = .query then s.queries + 1 else s.queries
  execs := if kind = .exec then s.execs + 1 else s.execs
  duration := s.duration + reply.duration
  slow := if isSlow then s.slow + 1 else s.slow
  errors := match reply.outcome with
    | .error _ => s.errors + 1
    | .ok _ => s.errors

end Statistics

/-- When a statement is slow, and what is done about it. -/
structure Monitor (σ : Type) where
  /-- Statements that take longer than this are slow. -/
  threshold : Number.Duration := 100 * 1000000
  /-- What happens after a slow statement. -/
  onSlow : String → Number.Duration → σ → σ := fun _ _ s => s

/-- What is reported of a slow statement. -/
def slowStatement (text : String) (duration : Number.Duration) : LogRecord where
  level := .warn
  message := "slow statement"
  attributes := [("duration", .duration duration), ("query", .text text)]

def Monitor.logging {σ : Type} (e : Executor σ) : Monitor σ where
  onSlow text duration s := e.log (slowStatement text duration) s

/-- An executor whose statements are counted. -/
def Executor.monitored {σ : Type} (m : Monitor σ) (e : Executor σ) : Executor (σ × Statistics) where
  perform statement s :=
    let (reply, inner) := e.perform statement s.1
    let isSlow := reply.duration > m.threshold
    (reply,
      (if isSlow then m.onSlow statement.text reply.duration inner else inner,
        s.2.record statement.kind reply isSlow))
  log record s := (e.log record s.1, s.2)

end ServiceCompiler
