import ServiceCompiler.Text.Octets

namespace ServiceCompiler.Url

open Text (Octets)
open Text.Octets

/-!
# Network addresses

Hosts and ports, and the numeric addresses that may stand in brackets.
-/

/-! ### Hosts and ports -/

/-- A host and a port in one text; a host with colons stands in brackets. -/
def joinHostPort (host port : Octets) : Octets :=
  if hasChar ':' host then
    ascii '[' :: host ++ ofString "]:" ++ port
  else host ++ ascii ':' :: port

/-- Whether the text is empty, or a colon followed by digits only. -/
def isOptionalPort : Octets → Bool
  | [] => true
  | b :: rest => isChar ':' b && rest.all isDigit

/-- The text without enclosing brackets. -/
def stripBrackets (host : Octets) : Octets :=
  match host with
  | [] => []
  | b :: rest =>
    if isChar '[' b && (rest.getLast?.map (isChar ']')).getD false then rest.dropLast
    else host

/-- The host and the port of a text, the port being empty when there is none. -/
def splitHost (hostPort : Octets) : Octets × Octets :=
  match cutLast? ':' hostPort with
  | some (host, port) =>
    if port.all isDigit then (stripBrackets host, port) else (stripBrackets hostPort, [])
  | none => (stripBrackets hostPort, [])

/-- Whether a text is a host and a port, with the brackets where they belong. -/
def isHostPort (text : Octets) : Bool :=
  match cutLast? ':' text with
  | none => false
  | some (host, port) =>
    match host with
    | [] => !hasChar '[' port && !hasChar ']' port
    | b :: inner =>
      if isChar '[' b then
        -- The first closing bracket stands right before the last colon.
        match inner.span (!isChar ']' ·) with
        | (within, [_]) =>
          !hasChar '[' within && !hasChar '[' port && !hasChar ']' port
        | _ => false
      else
        !hasChar ':' host && !hasChar '[' text && !hasChar ']' text

/-! ### Numeric addresses -/

/-- Whether the octets are a decimal number up to 255 without a needless zero. -/
def isByteNumber (octets : Octets) : Bool :=
  match octets with
  | [] => false
  | [b] => isDigit b
  | b :: rest =>
    octets.all isDigit && b != 0x30 && rest.length ≤ 2 &&
      octets.foldl (fun n d => n * 10 + (d.toNat - 0x30)) 0 ≤ 255

/-- Whether the octets are four numbers separated by points. -/
def isIPv4 (octets : Octets) : Bool :=
  let parts := splitOn '.' octets
  parts.length == 4 && parts.all isByteNumber

/-- Whether the octets are one group of an address: up to four hexadecimal digits. -/
def isHexGroup (octets : Octets) : Bool :=
  !octets.isEmpty && octets.length ≤ 4 && octets.all fun b => (hexValue? b).isSome

/-- The number of groups of a part of an address that has no `::`; an IPv4 address at the end counts
    for two. -/
def groupCount? (allowIPv4 : Bool) : List Octets → Option Nat
  | [] => some 0
  | [last] =>
    if isHexGroup last then some 1
    else if allowIPv4 && isIPv4 last then some 2
    else none
  | group :: rest => if isHexGroup group then (groupCount? allowIPv4 rest).map (· + 1) else none

/-- The groups of a part of an address; an empty part has none. -/
def groupsOf (octets : Octets) : List Octets :=
  if octets.isEmpty then [] else splitOn ':' octets

/-- The parts before and after the first `::`. -/
def cutEllipsis? : Octets → Option (Octets × Octets)
  | 0x3a :: 0x3a :: rest => some ([], rest)
  | [] => none
  | b :: rest => (cutEllipsis? rest).map fun (before, after) => (b :: before, after)

/-- Whether the octets are an IPv6 address without a zone. -/
def isPlainIPv6 (octets : Octets) : Bool :=
  match cutEllipsis? octets with
  | none => groupCount? true (splitOn ':' octets) == some 8
  | some (before, after) =>
    match groupCount? false (groupsOf before), groupCount? true (groupsOf after) with
    | some m, some n => m + n ≤ 7
    | _, _ => false

/-- Whether the octets are an IPv6 address, possibly with a zone that is not empty. -/
def isIPv6 (octets : Octets) : Bool :=
  match cutAt? '%' octets with
  | none => isPlainIPv6 octets
  | some (address, zone) => !zone.isEmpty && isPlainIPv6 address

end ServiceCompiler.Url
