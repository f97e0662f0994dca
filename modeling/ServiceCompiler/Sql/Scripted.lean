import ServiceCompiler.Sql.Session

namespace ServiceCompiler

/-!
# Scripted databases

A database that answers from a list of replies, and from a default when the list is used up.  It keeps
the statements that reached it.
-/

/-- A database that answers from a script. -/
structure ScriptedDatabase where
  /-- The replies to come. -/
  script : List Reply := []
  /-- Whether no more statements are taken. -/
  closed : Bool := false
  /-- The statements that were answered, the latest last. -/
  statements : List Statement := []

namespace ScriptedDatabase

/-- The reply when there is none in the script: one row with a zero. -/
def defaultReply : Reply where
  outcome := .ok { columns := ["n"], rows := [[.number 0]] }
  duration := 1

/-- Answers a statement.  Nothing reaches a closed database, and nothing is sent after the run was
    stopped. -/
def answer (d : ScriptedDatabase) (stopped : Bool) (s : Statement) : Reply × ScriptedDatabase :=
  if d.closed then ({ outcome := .error (.other "sql: database is closed"), duration := 1 }, d)
  else if stopped then ({ outcome := .error .canceled, duration := 1 }, d)
  else
    (d.script.headD defaultReply,
      { d with script := d.script.tail, statements := d.statements ++ [s] })

def close (d : ScriptedDatabase) : ScriptedDatabase := { d with closed := true }

/-- Whether a connection was made and closed again. -/
def connectionClosed (d : ScriptedDatabase) : Bool := d.closed && !d.statements.isEmpty

end ScriptedDatabase

/-- A database with a log. -/
structure DatabaseRun where
  database : ScriptedDatabase := {}
  log : List LogRecord := []

/-- Sessions on a database with a log. -/
def DatabaseRun.executor (stopped : Bool) : Executor DatabaseRun where
  perform s r :=
    let (reply, database) := r.database.answer stopped s
    (reply, { r with database })
  log record r := { r with log := r.log ++ [record] }

end ServiceCompiler
