import ServiceCompiler.Settings.Basic
import ServiceCompiler.Sql.Engine

namespace ServiceCompiler.Code

/-!
# Packages of the generated service

The packages that generated files import, their paths, and the modules that own those from outside
the standard library.
-/

/-- A package that generated code uses. -/
inductive Package where
  | gin
  | cors
  | static
  | godotenv
  | jwt
  | bcrypt
  /-- A package of the standard library. -/
  | standard (path : String)
  /-- A package of the generated module itself. -/
  | own (name : String)
  /-- The driver of an engine, imported for its effect only. -/
  | driver (engine : Engine)
  deriving DecidableEq, Repr

namespace Package

/-! Packages of the standard library by their use. -/

def http : Package := .standard "net/http"
def slog : Package := .standard "log/slog"
def sql : Package := .standard "database/sql"
def context : Package := .standard "context"
def os : Package := .standard "os"
def strings : Package := .standard "strings"
def fmt : Package := .standard "fmt"
def url : Package := .standard "net/url"
def net : Package := .standard "net"
def io : Package := .standard "io"
def bytes : Package := .standard "bytes"
def json : Package := .standard "encoding/json"

def path (settings : Settings) : Package → String
  | .gin => "github.com/gin-gonic/gin"
  | .cors => "github.com/gin-contrib/cors"
  | .static => "github.com/gin-contrib/static"
  | .godotenv => "github.com/joho/godotenv"
  | .jwt => "github.com/golang-jwt/jwt/v5"
  | .bcrypt => "golang.org/x/crypto/bcrypt"
  | .standard path => path
  | .own name => settings.packagePath name
  | .driver engine => engine.driverPackage

def importSpec (settings : Settings) (p : Package) : String :=
  let quoted := Text.quoted (p.path settings)
  match p with
  | .driver _ => "_ " ++ quoted
  | _ => quoted

end Package

/-! ### Required modules -/

/-- A required module and its version. -/
structure Requirement where
  path : String
  version : String
  deriving DecidableEq, Repr

/-- The module that owns a package, for packages that have to be fetched. -/
def Package.owner? : Package → Option Requirement
  | .gin => some ⟨"github.com/gin-gonic/gin", "v1.10.1"⟩
  | .cors => some ⟨"github.com/gin-contrib/cors", "v1.7.5"⟩
  | .static => some ⟨"github.com/gin-contrib/static", "v1.1.5"⟩
  | .godotenv => some ⟨"github.com/joho/godotenv", "v1.5.1"⟩
  | .jwt => some ⟨"github.com/golang-jwt/jwt/v5", "v5.3.0"⟩
  | .bcrypt => some ⟨"golang.org/x/crypto", "v0.46.0"⟩
  | .driver .mysql => some ⟨"github.com/go-sql-driver/mysql", "v1.9.3"⟩
  | .driver .mssql => some ⟨"github.com/microsoft/go-mssqldb", "v1.8.0"⟩
  | .standard _ => none
  | .own _ => none

end ServiceCompiler.Code
