import ServiceCompiler.Service.Document

namespace ServiceCompiler.Settings

open Document (Decode Node)

/-!
# Settings as documents

The settings file: what it leaves out keeps its default, and what it says is checked.
-/

def toDocument (s : Settings) : Document :=
  .record [("module", .text s.modulePath), ("header", .text s.header),
    ("bcryptCost", .number s.bcryptCost), ("goVersion", .text s.goVersion),
    ("workers", .number s.workers), ("noViews", .flag s.noViews)]

def toText (s : Settings) : String := s.toDocument.toYaml 4

def members : List (Decode.Member Settings) :=
  [ Service.textMember "module" fun s path => { s with modulePath := path },
    Service.textMember "header" fun s header => { s with header },
    Service.numberMember "bcryptCost" fun s bcryptCost => { s with bcryptCost },
    Service.textMember "goVersion" fun s goVersion => { s with goVersion },
    Service.numberMember "workers" fun s workers => { s with workers },
    Service.flagMember "noViews" fun s noViews => { s with noViews } ]

/-- Settings of a node over others. -/
def decode (s : Settings) (node : Node) : Decode Settings := do
  return (← Decode.record "gen.Config" members s node).getD s

/-- The settings of the text of a settings file, over the defaults. -/
def ofText (text : String) : Except Failure Settings := do
  let s ← (Decode.run decode {} text).mapError (Failure.ofDecode "parse essence config")
  s.check.mapError .settings
  return s

end ServiceCompiler.Settings
