import ServiceCompiler.Code.Lines
import ServiceCompiler.Code.Package

namespace ServiceCompiler.Code

/-!
# The module file

The file that names the generated module, its language version and the modules it requires.
-/

/-- The packages from outside the standard library that a service uses. -/
def outsidePackages (s : Service) : List Package :=
  [Package.gin] ++ (if s.hasMiddleware .cors then [Package.cors] else [])
    ++ (if s.hasMiddleware .static then [Package.static] else [])
    ++ (if s.envFile = "" then [] else [Package.godotenv])
    ++ (if s.tokenAuth then [Package.jwt, Package.bcrypt] else [])
    ++ ((Engine.ofName? s.database.dialect).map Package.driver).toList

/-- The modules that a service requires, in the order of their paths. -/
def requirements (s : Service) : List Requirement :=
  ((outsidePackages s).filterMap Package.owner?).mergeSort fun a b => Text.before a.path b.path

def moduleFile (settings : Settings) (s : Service) : String :=
  "\n".intercalate
    (["module " ++ settings.modulePath, "", "go " ++ settings.goVersion, "", "require ("]
      ++ indent ((requirements s).map fun r => r.path ++ " " ++ r.version)
      ++ [")", ""])

end ServiceCompiler.Code
