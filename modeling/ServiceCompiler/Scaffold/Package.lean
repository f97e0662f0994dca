import ServiceCompiler.Failure
import ServiceCompiler.Json.Printer

namespace ServiceCompiler.Scaffold

/-!
# The package file of a client project

Requests of the client that it cannot answer itself go to the backend, which the package file names as
its proxy.  The other members of the file keep their values.
-/

/-- The kind of a value, for the message that it is no record. -/
def kindName : Json → String
  | .null => "null"
  | .flag _ => "bool"
  | .number _ => "number"
  | .text _ => "string"
  | .list _ => "array"
  | .record _ => "object"

/-- The members of a package file; nothing in its place gives no members at all, to which none can be
    added. -/
def packageMembers (text : String) : Except Failure (List (String × Json)) := do
  let refuse := fun (e : JsonError) =>
    Failure.within "parse package.json" (.packageSyntax e.message)
  let value ← (Json.parse text).mapError refuse
  match value with
  | .null => throw .crash
  | .record members =>
    match Json.tooLargeMember? members with
    | some (path, literal) => throw (refuse (.mismatch path ("number " ++ literal) "float64"))
    | none => return members
  | value => throw (refuse (.mismatch [] (kindName value) "map[string]interface \x7b\x7d"))

/-- The package file with a proxy. -/
def patchPackage (backend text : String) : Except Failure String := do
  let members ← packageMembers text
  return (Json.record (members ++ [("proxy", .text backend)])).toText ++ "\n"

end ServiceCompiler.Scaffold
