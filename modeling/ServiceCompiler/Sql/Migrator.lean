import ServiceCompiler.Sql.Plan
import ServiceCompiler.Sql.Session

namespace ServiceCompiler

/-!
# Migrating

Creating the tables of a plan, one after the other.  A table that is there already is left alone, also
when it appears between the question whether it is there and the statement that creates it.
-/

namespace Failure

/-- The numbers with which the engines refuse to create a table that exists. -/
def tableExistsNumber : Engine → Int
  | .mysql => 1050
  | .mssql => 2714

/-- The words by which such a refusal is known when only its text is left. -/
def tableExistsWords : List String := ["Error 1050", "There is already an object named"]

/-- The number of the first refusal of an engine among failures. -/
def refusal? (e : Engine) (fs : List Failure) : Option Int :=
  fs.findSome? fun
    | .database engine number _ => if engine = e then some number else none
    | _ => none

/-- Whether a failure says that a table exists: by the first refusal of the one engine anywhere below
    it, by that of the other engine along its single causes, or by its text. -/
def isTableExists (f : Failure) : Bool :=
  refusal? .mysql f.causes == some (tableExistsNumber .mysql)
    || refusal? .mssql f.lineage == some (tableExistsNumber .mssql)
    || tableExistsWords.any fun words => Text.contains words.toList f.text.toList

end Failure

namespace PlanStep

/-- Creates the table of a step; tells whether it was created. -/
def create? (s : PlanStep) : Session (Except Failure Bool) := do
  match ← Session.exec s.create with
  | .ok () => return .ok true
  | .error f => return if f.isTableExists then .ok false else .error f

/-- Applies a step; tells whether the table was created. -/
def apply (s : PlanStep) : Session (Except Failure Bool) := do
  if s.existsQuery = "" then s.create?
  else
    match ← Session.count s.existsQuery with
    | .error f => return .error f
    | .ok n => if n > 0 then return .ok false else s.create?

end PlanStep

/-- Applies the steps of a plan up to the first that fails. -/
def migrate : List PlanStep → Session (Except Failure Unit)
  | [] => return .ok ()
  | s :: rest => do
    match ← s.apply with
    | .error f =>
      Session.report {
        level := .error, message := "migration failed"
        attributes := [("table", .text s.table), ("error", .failure f)] }
      return .error (.migration s.table f)
    | .ok applied =>
      Session.report {
        level := .info, message := "migrated table"
        attributes := [("table", .text s.table), ("applied", .flag applied), ("duration", .elapsed)] }
      migrate rest

end ServiceCompiler
