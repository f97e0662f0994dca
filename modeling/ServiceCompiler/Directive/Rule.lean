import ServiceCompiler.Directive.Field
import ServiceCompiler.Number.Word
import ServiceCompiler.Sql.Engine
import ServiceCompiler.Text.Scan

namespace ServiceCompiler

open Text (Scan literal skip run1 ledBy)

/-!
# The rules of the language

Each rule says which lines it claims, by their beginning and possibly by a text they contain, and how
the arguments of a claimed line are read.  The first rule that claims a line decides it: when the
arguments cannot be read, the line is malformed and no other rule is tried.

* `Rule.all` is the table, in the order in which rules are tried.
* `Directive.read` is the outcome for one line.
-/

/-! ### Classes of characters in the rules -/

/-- Blanks allowed between the parts of a directive: only the ASCII ones without vertical tab. -/
def isGap (c : Char) : Bool := c == ' ' || c == '\t' || c == '\n' || c == '\r' || c == '\x0c'

/-- Characters of a route path after its first slash. -/
def isPathChar (c : Char) : Bool := Text.isWordChar c || c == '/' || c == ':'

/-- Reads a route path such as `/items/:id` or the root path. -/
def routePath : Scan String := ledBy '/' isPathChar

def plainWord : Scan String := run1 Text.isWordChar

/-- Reads a plain word in single quotes. -/
def quotedWord : Scan String := do
  literal "'"
  let word ← plainWord
  literal "'"
  return word

/-- Reads a non-empty text in single quotes. -/
def quotedText : Scan String := do
  literal "'"
  let text ← run1 (· != '\'')
  literal "'"
  return text

/-- Reads the opening word of most directives and the blanks after it. -/
def whisper : Scan Unit := do
  literal "whisper:"
  skip isGap

/-! ### Rules -/

/-- What the arguments of a line say: a directive, or a value outside the allowed ones. -/
abbrev Verdict := Except UnsupportedValue Directive

/-- A rule of the language. -/
structure Rule where
  /-- The name under which the rule is reported. -/
  name : String
  /-- The beginning of the lines that the rule claims. -/
  lead : String
  /-- A text that a claimed line also contains. -/
  marker : String := ""
  /-- How the arguments of a claimed line are read. -/
  arguments : List Char → Option Verdict

def Rule.claims (rule : Rule) (line : List Char) : Bool :=
  Text.hasLead rule.lead.toList line && Text.contains rule.marker.toList line

/-- A rule without arguments. -/
def Rule.fixed (name lead : String) (directive : Directive) : Rule where
  name := name
  lead := lead
  arguments _ := some (.ok directive)

/-- A rule whose arguments stand at the first place of the line where `scan` succeeds. -/
def Rule.scanning (name lead : String) (scan : Scan Directive) : Rule where
  name := name
  lead := lead
  arguments line := (scan.anywhere? line).map .ok

/-- A rule that claims only the lines that also contain `marker`. -/
def Rule.marked (marker : String) (rule : Rule) : Rule := { rule with marker }

/-- A rule whose argument is one of the allowed words, in any mixture of cases. -/
def Rule.choosing (name : String) (allowed : List String) (directive : String → Directive) :
    Rule where
  name := name
  lead := "whisper: " ++ name ++ " "
  arguments line :=
    let scan : Scan String := do
      whisper
      literal (name ++ " ")
      plainWord
    (scan.anywhere? line).map fun word =>
      let value := Text.lowerAscii word
      if allowed.contains value then .ok (directive value)
      else .error { directive := name, value, allowed }

/-- The greatest port number plus one; larger ones are not read. -/
def portLimit : Nat := Number.signedLimit

def portScan : Scan Directive := do
  literal "speak at port "
  let digits ← run1 Text.isDigit
  let number ← Text.natOf? 10 digits.toList
  if number < portLimit then return .port number else failure

/-- Reads a list of columns in braces. -/
def columnList (p : Char → Bool) : Scan String := do
  literal "\x7b"
  let text ← run1 p
  literal "\x7d"
  return text

/-- Reads a directive that guards a route. -/
def guardScan : Scan Directive := do
  whisper
  literal "auth route "
  let path ← routePath
  literal " requires login"
  return .guard path

/-- Reads a directive that offers what the words say of a collection. -/
def offerScan (words : String) (action : Action) : Scan Directive := do
  literal "when asked for "
  let path ← routePath
  literal words
  let collection ← quotedWord
  return .route { method := "GET", path, action, collection }

/-- Reads a directive that inserts into a collection. -/
def insertRouteScan : Scan Directive := do
  literal "when posted to "
  let path ← routePath
  literal " with body "
  let body ← columnList fun c => Text.isWordChar c || isGap c || c == ','
  literal ", insert into "
  let collection ← quotedWord
  literal ", return inserted document"
  return .route
    { method := "POST", path, action := .insert, collection
      bodyFields := bodyFieldsOfText body }

/-- Reads a directive that creates a table.  A list without any column counts as not given. -/
def migrationScan : Scan Directive := do
  whisper
  literal "db migration "
  let name ← quotedText
  literal " with fields "
  let list ← columnList (· != '\x7d')
  let fields := fieldsOfText list
  return .migration
    { table := tableOfName name
      fields := if fields.isEmpty then none else some fields }

/-- The rules in the order in which they are tried. -/
def Rule.all : List Rule :=
  [ Rule.fixed "essence" "essence: express" .express,
    { name := "port", lead := "speak at port "
      arguments := fun line => (portScan.atStart? line).map .ok },
    Rule.fixed "json" "whisper: parse incoming as json" (.middleware { kind := .json }),
    Rule.scanning "environment" "whisper: load environment from "
      (do whisper; literal "load environment from "; return .environment (← quotedText)),
    Rule.fixed "cors" "whisper: enable cors" (.middleware { kind := .cors }),
    Rule.choosing "db type" Engine.names .dialect,
    Rule.scanning "connect" "whisper: connect to '"
      (do literal "connect to "; return .connect (← quotedText)),
    Rule.scanning "collection" "whisper: use collection '"
      (do literal "use collection "; return .collection (← quotedWord)),
    Rule.fixed "logger" "whisper: log requests" (.middleware { kind := .logger }),
    Rule.scanning "static" "whisper: serve static from "
      (do
        whisper
        literal "serve static from "
        return .middleware { kind := .static, arg := ← quotedText }),
    Rule.fixed "auth enable" "whisper: auth enable" .authEnable,
    Rule.choosing "auth strategy" [Auth.jwt] .authStrategy,
    Rule.scanning "auth route" "whisper: auth route " guardScan,
    Rule.choosing "frontend framework" [Frontend.react] .framework,
    Rule.scanning "npm install" "whisper: npm install "
      (do whisper; literal "npm install "; return .package (← run1 (!isGap ·))),
    (Rule.scanning "list route" "when asked for " (offerScan ", offer all items from " .listAll)).marked
      "offer all items from",
    (Rule.scanning "get route" "when asked for " (offerScan ", retrieve item by id from " .getById)).marked
      "retrieve item by id from",
    (Rule.scanning "insert route" "when posted to " insertRouteScan).marked "insert into",
    Rule.scanning "migration" "whisper: db migration " migrationScan ]

/-! ### Reading a line -/

/-- The outcome for one line. -/
inductive Reading where
  /-- The line is a directive. -/
  | effective (directive : Directive)
  /-- The line is claimed by the named rule, but its arguments cannot be read. -/
  | malformed (rule : String)
  /-- No rule claims the line. -/
  | unrecognized
  /-- The line gives a directive a value that is not allowed. -/
  | unsupported (value : UnsupportedValue)
  deriving DecidableEq, Repr

def Rule.claiming? (line : List Char) : Option Rule := Rule.all.find? (·.claims line)

/-- Reads one line. -/
def Directive.read (text : String) : Reading :=
  match Rule.claiming? text.toList with
  | none => .unrecognized
  | some rule =>
    match rule.arguments text.toList with
    | none => .malformed rule.name
    | some (.ok directive) => .effective directive
    | some (.error value) => .unsupported value

end ServiceCompiler
