import ServiceCompiler.Service.Basic
import ServiceCompiler.Text.Basic

namespace ServiceCompiler

/-!
# Plans for client projects

What has to be run to set up the client project of a service.
-/

/-- A command to run. -/
structure Command where
  name : String
  args : List String
  deriving DecidableEq, Repr

def Command.line (c : Command) : String := " ".intercalate (c.name :: c.args)

/-- The commands that set up a client project, and the address of its backend. -/
structure ScaffoldPlan where
  commands : List Command
  backend : String
  deriving DecidableEq, Repr

/-- The plan for a client project; only one framework has one. -/
def ScaffoldPlan.ofFrontend? (frontend : Option Frontend) (port : Int) : Option ScaffoldPlan := do
  let f ← frontend
  if f.framework = Frontend.react then
    let port := if port ≤ 0 then defaultPort else port
    let packages :=
      if f.packages.isEmpty then [] else [({ name := "npm", args := "install" :: f.packages } : Command)]
    some {
      commands :=
        { name := "npx", args := ["create-react-app", "."] } :: packages
          ++ [{ name := "npm", args := ["install", "react-router-dom", "axios"] }]
      backend := "http://localhost:" ++ Text.decimalInt port }
  else none

end ServiceCompiler
