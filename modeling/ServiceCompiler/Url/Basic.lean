import ServiceCompiler.Url.Address
import ServiceCompiler.Url.Percent

namespace ServiceCompiler

open Text (Octets)
open Text.Octets

/-!
# URLs

Reading a URL into its parts and writing one back.  A text without a scheme is read as a relative
reference; a scheme that is not followed by a slash leaves no further parts.
-/

/-- The user part of a URL. -/
structure UserInfo where
  name : Octets
  password : Option Octets
  deriving DecidableEq, Repr

/-- The parts of a URL.  The host still holds the port, and the query is kept as written. -/
structure Url where
  scheme : Octets := []
  user : Option UserInfo := none
  host : Octets := []
  path : Octets := []
  query : Octets := []
  deriving DecidableEq, Repr

namespace Url

/-- The user name, empty when there is none. -/
def userName (u : Url) : Octets := (u.user.map (·.name)).getD []

/-- The password, empty when there is none. -/
def password (u : Url) : Octets := (u.user.bind (·.password)).getD []

/-- The host without port and brackets. -/
def hostName (u : Url) : Octets := (splitHost u.host).1

/-- The port, empty when there is none. -/
def port (u : Url) : Octets := (splitHost u.host).2

/-! ### Reading -/

/-- The scheme and the rest after its colon.  There is none when the text starts with a colon; a
    text whose first colon comes after other characters has an empty scheme. -/
def splitScheme? (text : Octets) : Option (Octets × Octets) :=
  let isSchemeChar := fun b => isLetter b || isDigit b || isOneOf "+-." b
  match text.span isSchemeChar with
  | (scheme, b :: rest) =>
    if isChar ':' b then
      match scheme with
      | [] => none
      | first :: _ => if isLetter first then some (scheme, rest) else some ([], text)
    else some ([], text)
  | (_, []) => some ([], text)

/-- Whether an octet may stand in the user part. -/
def isUserInfoOctet (b : UInt8) : Bool :=
  isLetter b || isDigit b || isOneOf "-._:~!$&'()*+,;=%@" b

/-- Reads the user part. -/
def readUserInfo? (text : Octets) : Option UserInfo := do
  if !text.all isUserInfoOctet then none
  match cutAt? ':' text with
  | none => return { name := ← Component.userInfo.unescape? text, password := none }
  | some (name, password) =>
    return {
      name := ← Component.userInfo.unescape? name
      password := some (← Component.userInfo.unescape? password) }

/-- The parts before and after the first `%25`. -/
def cutZone? : Octets → Option (Octets × Octets)
  | 0x25 :: 0x32 :: 0x35 :: rest => some ([], 0x25 :: 0x32 :: 0x35 :: rest)
  | [] => none
  | b :: rest => (cutZone? rest).map fun (before, after) => (b :: before, after)

def readBracketed? (text : Octets) : Option Octets := do
  let address ←
    match cutZone? text with
    | some (host, zone) => do
      return (← Component.host.unescape? host) ++ (← Component.zone.unescape? zone)
    | none => Component.host.unescape? text
  if isIPv6 address then some address else none

/-- Reads a host with its port. -/
def readHost? (text : Octets) : Option Octets :=
  match cutLast? '[' text with
  | some (before, inner) => do
    let (address, port) ← cutLast? ']' inner
    if !before.isEmpty || !isOptionalPort port then none
    let address ← readBracketed? address
    let port ← Component.host.unescape? port
    return ascii '[' :: address ++ ascii ']' :: port
  | none =>
    match cutLast? ':' text with
    | some (_, port) => if port.all isDigit then Component.host.unescape? text else none
    | none => Component.host.unescape? text

/-- Reads the part between the two slashes and the path. -/
def readAuthority? (text : Octets) : Option (Option UserInfo × Octets) := do
  match cutLast? '@' text with
  | none => return (none, ← readHost? text)
  | some (user, host) =>
    let host ← readHost? host
    return (some (← readUserInfo? user), host)

def readHierarchy? (scheme query rest : Octets) : Option Url := do
  match rest with
  | 0x2f :: 0x2f :: more =>
    if scheme.isEmpty && more.head? == some 0x2f then
      return { scheme, query, path := ← Component.path.unescape? rest }
    else
      let (authority, path) := more.span (!isChar '/' ·)
      let (user, host) ← readAuthority? authority
      return { scheme, query, user, host, path := ← Component.path.unescape? path }
  | _ => return { scheme, query, path := ← Component.path.unescape? rest }

/-- Reads a URL without its fragment. -/
def readBody? (text : Octets) : Option Url := do
  if text.any (fun b => b < 0x20 || b == 0x7f) then none
  else if text = [ascii '*'] then return { path := text }
  else
    let (scheme, rest) ← splitScheme? text
    let scheme := scheme.map fun b => if 0x41 ≤ b && b ≤ 0x5a then b + 0x20 else b
    let (rest, query) := (cutAt? '?' rest).getD (rest, [])
    if rest.head? = some 0x2f then readHierarchy? scheme query rest
    else if !scheme.isEmpty then return { scheme, query }
    else if hasChar ':' (rest.takeWhile (!isChar '/' ·)) then none
    else return { query, path := ← Component.path.unescape? rest }

/-- Reads a URL.  The fragment has to be readable, but is not kept. -/
def parse? (text : Octets) : Option Url := do
  let (body, fragment) := (cutAt? '#' text).getD (text, [])
  let url ← readBody? body
  let _ ← Component.fragment.unescape? fragment
  return url

/-- The parameters of the query, in order.  Parts with a semicolon or a wrong escape are left
    out. -/
def parameters (u : Url) : List (Octets × Octets) :=
  (splitOn '&' u.query).filterMap fun part =>
    if part.isEmpty || hasChar ';' part then none
    else do
      let (key, value) := (cutAt? '=' part).getD (part, [])
      return (← Component.query.unescape? key, ← Component.query.unescape? value)

/-! ### Writing -/

/-- The user part as written. -/
def writeUserInfo (user : UserInfo) : Octets :=
  Component.userInfo.escape user.name
    ++ (match user.password with
      | none => []
      | some password => ascii ':' :: Component.userInfo.escape password)

/-- A query with the given parameters. -/
def writeParameters (parameters : List (Octets × Octets)) : Octets :=
  [ascii '&'].intercalate (parameters.map fun (key, value) =>
    Component.query.escape key ++ ascii '=' :: Component.query.escape value)

/-- A URL without a path, as written. -/
def write (u : Url) : Octets :=
  u.scheme ++ ofString "://"
    ++ (match u.user with
      | none => []
      | some user => writeUserInfo user ++ [ascii '@'])
    ++ Component.host.escape u.host ++ ascii '?' :: u.query

end Url

end ServiceCompiler
