import ServiceCompiler.Naming.Fresh
import ServiceCompiler.Naming.Identifier

namespace ServiceCompiler

open Naming (Names)

/-!
# Named route groups

A named group knows the function that registers it, its file and one handler per route.  Identifiers
are distinct over the whole list of groups, and file names are distinct even without regard to case.
-/

/-- A route group with the names it is generated under. -/
structure NamedGroup extends RouteGroup where
  register : String
  file : String
  /-- One handler name per route, in the order of the routes. -/
  handlers : List String
  deriving DecidableEq, Repr

/-- Identifiers that the generated routes declare in any case. -/
def reservedNames : List String :=
  ["Mount", "RegisterAuth", "authRegister", "authLogin", "credentials", "passwordCost"]

/-- Files that are generated in any case. -/
def reservedFiles : List String := ["index.go", "auth.go"]

/-- The identifiers taken before any group is named. -/
def initialIdentifiers : Names := Names.taking {} reservedNames

/-- The file names taken before any group is named. -/
def initialFiles : Names := Names.taking { foldCase := true, ending := ".go" } reservedFiles

/-- The groups with their names, given the identifiers and files taken so far. -/
def nameGroupsFrom (idents files : Names) : List RouteGroup → List NamedGroup
  | [] => []
  | g :: rest =>
    let (register, idents) := idents.next (Naming.registerName g.segment)
    let (file, files) := files.next (Naming.fileName g.segment)
    let (handlers, idents) := idents.nextAll (g.routes.map Naming.handlerName)
    { g with register, file, handlers } :: nameGroupsFrom idents files rest

/-- The groups with their names. -/
def nameGroups (groups : List RouteGroup) : List NamedGroup :=
  nameGroupsFrom initialIdentifiers initialFiles groups

end ServiceCompiler
