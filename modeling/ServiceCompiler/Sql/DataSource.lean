import ServiceCompiler.Number.Duration
import ServiceCompiler.Sql.Zone
import ServiceCompiler.Text.LetterCase
import ServiceCompiler.Url.Basic

namespace ServiceCompiler

open Text (Octets)
open Number (Duration)
open Text.Octets

/-!
# Data source names

The data source name of a MySQL connection, `user:password@net(address)/database?parameters`, as
settings: how it is read, completed and written.

* `DataSource.parse` reads a name and fills in what is missing.
* `DataSource.write` writes one; parameters at their default are left out, unknown parameters follow
  the known ones in the order of their names.
-/

/-- The settings of a MySQL connection. -/
structure DataSource where
  user : Octets := []
  password : Octets := []
  network : Octets := []
  address : Octets := []
  database : Octets := []
  allowAllFiles : Bool := false
  allowCleartextPasswords : Bool := false
  allowFallbackToPlaintext : Bool := false
  allowNativePasswords : Bool := true
  allowOldPasswords : Bool := false
  checkConnLiveness : Bool := true
  clientFoundRows : Bool := false
  charsets : List Octets := []
  collation : Octets := []
  columnsWithAlias : Bool := false
  connectionAttributes : Octets := []
  compress : Bool := false
  interpolateParams : Bool := false
  location : Octets := ofString "UTC"
  multiStatements : Bool := false
  parseTime : Bool := false
  timeTruncate : Duration := 0
  readTimeout : Duration := 0
  rejectReadOnly : Bool := false
  serverPubKey : Octets := []
  timeout : Duration := 0
  tls : Octets := []
  writeTimeout : Duration := 0
  maxAllowedPacket : Int := 67108864
  parameters : List (Octets × Octets) := []
  deriving DecidableEq, Repr

/-- Why a data source name cannot be used. -/
inductive DataSourceError where
  | unescapedParameter
  | openAddress
  | missingSlash
  | unknownNetwork (network : Octets)
  | notBool (value : Octets)
  | badEscape (escape : Octets)
  | badDatabase (database escape : Octets)
  | badLocation (cause : ZoneError)
  | badDuration (value : Octets) (cause : Duration.Error)
  | badTruncation (value : Octets) (cause : Duration.Error)
  | badInteger (value : Octets) (outOfRange : Bool)
  | badPublicKeyName (escape : Octets)
  | badTlsName (escape : Octets)
  | badAttributes (escape : Octets)
  | unknownTls (name : Octets)
  | unknownPublicKey (name : Octets)
  /-- A parameter whose use is a programming error; the reader gives up altogether. -/
  | removedParameter
  deriving DecidableEq, Repr

namespace DataSourceError

/-- The text about a wrong escape. -/
def escapeText (escape : Octets) : String := "invalid URL escape " ++ escape.quoted

/-- The text of an error. -/
def message : DataSourceError → String
  | .unescapedParameter => "invalid DSN: did you forget to escape a param value?"
  | .openAddress => "invalid DSN: network address not terminated (missing closing brace)"
  | .missingSlash => "invalid DSN: missing the slash separating the database name"
  | .unknownNetwork network => "default addr for network '" ++ network.toText ++ "' unknown"
  | .notBool value => "invalid bool value: " ++ value.toText
  | .badEscape escape => escapeText escape
  | .badDatabase database escape =>
    "invalid dbname " ++ database.quoted ++ ": " ++ escapeText escape
  | .badLocation cause => cause.message
  | .badDuration value cause => cause.message value.toText
  | .badTruncation value cause =>
    "invalid timeTruncate value: " ++ value.toText ++ ", error: " ++ cause.message value.toText
  | .badInteger value outOfRange =>
    "strconv.Atoi: parsing " ++ value.quoted
      ++ (if outOfRange then ": value out of range" else ": invalid syntax")
  | .badPublicKeyName escape => "invalid value for server pub key name: " ++ escapeText escape
  | .badTlsName escape => "invalid value for TLS config name: " ++ escapeText escape
  | .badAttributes escape => "invalid connectionAttributes value: " ++ escapeText escape
  | .unknownTls name => "invalid value / unknown config name: " ++ name.toText
  | .unknownPublicKey name => "invalid value / unknown server pub key name: " ++ name.toText
  | .removedParameter => ""

end DataSourceError

namespace DataSource

/-! ### Values of parameters -/

/-- A truth value as it may be written in a parameter. -/
def readBool? (value : Octets) : Option Bool :=
  if ["1", "true", "TRUE", "True"].contains value.toText then some true
  else if ["0", "false", "FALSE", "False"].contains value.toText then some false
  else none

def readBool (value : Octets) : Except DataSourceError Bool :=
  match readBool? value with
  | some b => .ok b
  | none => .error (.notBool value)

def readText (wrap : Octets → DataSourceError) (value : Octets) : Except DataSourceError Octets :=
  (Url.Component.query.unescape value).mapError wrap

def readDuration (wrap : Octets → Duration.Error → DataSourceError) (value : Octets) :
    Except DataSourceError Duration :=
  (Duration.parse value.toText).mapError (wrap value)

/-- Reads a decimal integer of 64 bits with an optional sign. -/
def readInteger (value : Octets) : Except DataSourceError Int :=
  let (negative, digits) :=
    match value.toChars with
    | '-' :: cs => (true, cs)
    | '+' :: cs => (false, cs)
    | cs => (false, cs)
  match (if digits.all Text.isDigit then Text.natOf? 10 digits else none) with
  | none => .error (.badInteger value false)
  | some n =>
    let signed : Int := if negative then -(n : Int) else n
    if Number.fitsSigned signed then .ok signed else .error (.badInteger value true)

/-- Reads the name of a time zone. -/
def readLocation (value : Octets) : Except DataSourceError Octets := do
  let name ← readText .badEscape value
  (findZone name).mapError .badLocation
  return if name.isEmpty then ofString "UTC" else name

/-- Reads the choice of encryption: a truth value, one of two words, or the name of settings. -/
def readTls (value : Octets) : Except DataSourceError Octets :=
  match readBool? value with
  | some b => .ok (ofString (if b then "true" else "false"))
  | none =>
    let word := Text.lower value.toText
    if word = "skip-verify" ∨ word = "preferred" then .ok (ofString word)
    else readText .badTlsName value

/-- The parameters with one more; an earlier one of the same name is replaced. -/
def setParameter (parameters : List (Octets × Octets)) (key value : Octets) :
    List (Octets × Octets) :=
  if parameters.any (·.1 == key) then
    parameters.map fun p => if p.1 == key then (key, value) else p
  else parameters ++ [(key, value)]

/-- The settings after one parameter. -/
def readParameter (s : DataSource) (key value : Octets) : Except DataSourceError DataSource := do
  match key.toText with
  | "allowAllFiles" => return { s with allowAllFiles := ← readBool value }
  | "allowCleartextPasswords" => return { s with allowCleartextPasswords := ← readBool value }
  | "allowFallbackToPlaintext" => return { s with allowFallbackToPlaintext := ← readBool value }
  | "allowNativePasswords" => return { s with allowNativePasswords := ← readBool value }
  | "allowOldPasswords" => return { s with allowOldPasswords := ← readBool value }
  | "checkConnLiveness" => return { s with checkConnLiveness := ← readBool value }
  | "clientFoundRows" => return { s with clientFoundRows := ← readBool value }
  | "charset" => return { s with charsets := splitOn ',' value }
  | "collation" => return { s with collation := value }
  | "columnsWithAlias" => return { s with columnsWithAlias := ← readBool value }
  | "compress" => return { s with compress := ← readBool value }
  | "interpolateParams" => return { s with interpolateParams := ← readBool value }
  | "loc" => return { s with location := ← readLocation value }
  | "multiStatements" => return { s with multiStatements := ← readBool value }
  | "parseTime" => return { s with parseTime := ← readBool value }
  | "timeTruncate" => return { s with timeTruncate := ← readDuration .badTruncation value }
  | "readTimeout" => return { s with readTimeout := ← readDuration .badDuration value }
  | "rejectReadOnly" => return { s with rejectReadOnly := ← readBool value }
  | "serverPubKey" => return { s with serverPubKey := ← readText .badPublicKeyName value }
  | "strict" => throw .removedParameter
  | "timeout" => return { s with timeout := ← readDuration .badDuration value }
  | "tls" => return { s with tls := ← readTls value }
  | "writeTimeout" => return { s with writeTimeout := ← readDuration .badDuration value }
  | "maxAllowedPacket" => return { s with maxAllowedPacket := ← readInteger value }
  | "connectionAttributes" => return { s with connectionAttributes := ← readText .badAttributes value }
  | _ => return { s with parameters := setParameter s.parameters key (← readText .badEscape value) }

/-- The settings after a list of parameters separated by `&`; a part without `=` says nothing. -/
def readParameters (s : DataSource) (text : Octets) : Except DataSourceError DataSource :=
  (splitOn '&' text).foldlM
    (fun s part =>
      match cutAt? '=' part with
      | none => .ok s
      | some (key, value) => s.readParameter key value)
    s

/-! ### Reading -/

/-- Reads the part before the last slash: user, password, network and address. -/
def readServer (s : DataSource) (text : Octets) : Except DataSourceError DataSource := do
  let (login, server) := ((cutLast? '@' text).map fun (l, r) => (some l, r)).getD (none, text)
  let s :=
    match login with
    | none => s
    | some login =>
      let (user, password) := (cutAt? ':' login).getD (login, [])
      { s with user, password }
  match cutAt? '(' server with
  | none => return { s with network := server }
  | some (network, address) =>
    if (address.getLast?.map (isChar ')')).getD false then
      return { s with network, address := address.dropLast }
    else if hasChar ')' address then throw .unescapedParameter
    else throw .openAddress

/-- Fills in the parts that a name may leave out, and checks the names it refers to. -/
def complete (s : DataSource) : Except DataSourceError DataSource := do
  let network := if s.network.isEmpty then ofString "tcp" else s.network
  let isTcp := network = ofString "tcp"
  let address ←
    if s.address.isEmpty then
      if isTcp then pure (ofString "127.0.0.1:3306")
      else if network = ofString "unix" then pure (ofString "/tmp/mysql.sock")
      else throw (.unknownNetwork network)
    else if isTcp && !Url.isHostPort s.address then
      pure (Url.joinHostPort s.address (ofString "3306"))
    else pure s.address
  let s := { s with network, address }
  let tls := s.tls.toText
  if !(["", "false", "true", "skip-verify", "preferred"].contains tls) then throw (.unknownTls s.tls)
  let s := if tls = "preferred" then { s with allowFallbackToPlaintext := true } else s
  if !s.serverPubKey.isEmpty then throw (.unknownPublicKey s.serverPubKey)
  return s

/-- Reads a data source name.  The server part ends at the last slash. -/
def parse (name : Octets) : Except DataSourceError DataSource := do
  match cutLast? '/' name with
  | none => if name.isEmpty then complete {} else throw .missingSlash
  | some (server, rest) =>
    let s ← if server.isEmpty then pure {} else readServer {} server
    let (database, parameters) := ((cutAt? '?' rest).map fun (d, p) => (d, some p)).getD (rest, none)
    let s ←
      match parameters with
      | none => pure s
      | some text => s.readParameters text
    let database ← (Url.Component.pathSegment.unescape database).mapError (.badDatabase database)
    complete { s with database }

/-! ### Writing -/

/-- A parameter that is written when it differs from its default. -/
def flag (name : String) (isWritten value : Bool) : List Octets :=
  if isWritten then [ofString (name ++ (if value then "=true" else "=false"))] else []

/-- A parameter that is written when its value is not empty. -/
def item (name : String) (value : Octets) : List Octets :=
  if value.isEmpty then [] else [ofString (name ++ "=") ++ value]

/-- A duration that is written when it is positive. -/
def span (name : String) (d : Duration) : List Octets :=
  if d > 0 then [ofString (name ++ "=" ++ Duration.text d)] else []

/-- The parameters as they are written, in order. -/
def writtenParameters (s : DataSource) : List Octets :=
  let escape := Url.Component.query.escape
  flag "allowAllFiles" s.allowAllFiles true
    ++ flag "allowCleartextPasswords" s.allowCleartextPasswords true
    ++ flag "allowFallbackToPlaintext" s.allowFallbackToPlaintext true
    ++ flag "allowNativePasswords" (!s.allowNativePasswords) false
    ++ flag "allowOldPasswords" s.allowOldPasswords true
    ++ flag "checkConnLiveness" (!s.checkConnLiveness) false
    ++ flag "clientFoundRows" s.clientFoundRows true
    ++ (if s.charsets.isEmpty then []
        else [ofString "charset=" ++ [ascii ','].intercalate s.charsets])
    ++ item "collation" s.collation
    ++ flag "columnsWithAlias" s.columnsWithAlias true
    ++ item "connectionAttributes" (escape s.connectionAttributes)
    ++ flag "compress" s.compress true
    ++ flag "interpolateParams" s.interpolateParams true
    ++ (if s.location.toText = "UTC" then [] else item "loc" (escape s.location))
    ++ flag "multiStatements" s.multiStatements true
    ++ flag "parseTime" s.parseTime true
    ++ span "timeTruncate" s.timeTruncate
    ++ span "readTimeout" s.readTimeout
    ++ flag "rejectReadOnly" s.rejectReadOnly true
    ++ item "serverPubKey" (escape s.serverPubKey)
    ++ span "timeout" s.timeout
    ++ item "tls" (escape s.tls)
    ++ span "writeTimeout" s.writeTimeout
    ++ (if s.maxAllowedPacket = 67108864 then []
        else [ofString ("maxAllowedPacket=" ++ Text.decimalInt s.maxAllowedPacket)])
    ++ (s.parameters.mergeSort fun p q => before p.1 q.1).map fun (key, value) =>
      key ++ ascii '=' :: escape value

def write (s : DataSource) : Octets :=
  let login :=
    if s.user.isEmpty then []
    else s.user ++ (if s.password.isEmpty then [] else ascii ':' :: s.password)
      ++ [ascii '@']
  let server :=
    if s.network.isEmpty then []
    else s.network
      ++ (if s.address.isEmpty then [] else ascii '(' :: s.address ++ [ascii ')'])
  let parameters :=
    match s.writtenParameters with
    | [] => []
    | written => ascii '?' :: [ascii '&'].intercalate written
  login ++ server ++ ascii '/' :: Url.Component.pathSegment.escape s.database ++ parameters

end DataSource

end ServiceCompiler
