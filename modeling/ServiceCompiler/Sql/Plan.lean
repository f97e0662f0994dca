import ServiceCompiler.Sql.Engine

namespace ServiceCompiler

/-!
# Migration plans

The statements that create the tables of a service, one step per migration, in order.
-/

/-- One table to create.  The query is empty when the table may be created without asking. -/
structure PlanStep where
  table : String
  existsQuery : String
  create : String
  deriving DecidableEq, Repr

def Engine.planStep (e : Engine) (m : Migration) : PlanStep where
  table := m.table
  existsQuery := e.tableExists m.table
  create := e.createTable m.table m.columns

def Engine.plan (e : Engine) (migrations : List Migration) : List PlanStep :=
  migrations.map e.planStep

end ServiceCompiler
