import ServiceCompiler.Text.Octets

namespace ServiceCompiler.Url

open Text (Octets)
open Text.Octets

/-!
# Percent escapes

Each component of a URL leaves some characters as they are and escapes all others by `%` and two
hexadecimal digits.  Reading accepts more than writing produces, except in hosts, where only octets
beyond ASCII may be escaped.
-/

/-- A component of a URL. -/
inductive Component where
  | host
  | zone
  | userInfo
  | path
  | pathSegment
  | query
  | fragment
  deriving DecidableEq, Repr

/-- Whether an octet has to be escaped in a component. -/
def Component.escapes (component : Component) (b : UInt8) : Bool :=
  if isLetter b || isDigit b then false
  else if (component == .host || component == .zone) && isOneOf "!$&'()*+,;=:[]<>\"" b then
    false
  else if isOneOf "-_.~" b then false
  else if isOneOf "$&+,/:;=?@" b then
    match component with
    | .path => isChar '?' b
    | .pathSegment => isOneOf "/;,?" b
    | .userInfo => isOneOf "@/?:" b
    | .fragment => false
    | _ => true
  else if component == .fragment && isOneOf "!()*" b then false
  else true

/-- The digit of a value below sixteen, in capitals. -/
def hexDigit (n : Nat) : UInt8 := (if n < 10 then 0x30 + n else 0x37 + n).toUInt8

/-- One octet as it stands in a component. -/
def Component.escapeOctet (component : Component) (b : UInt8) : Octets :=
  if b = 0x20 ∧ component = .query then [0x2b]
  else if component.escapes b then [0x25, hexDigit (b.toNat / 16), hexDigit (b.toNat % 16)]
  else [b]

/-- The octets as they stand in a component. -/
def Component.escape (component : Component) (octets : Octets) : Octets :=
  octets.flatMap component.escapeOctet

/-- The octet that an escape stands for, when the component allows it. -/
def Component.unescapeCode? (component : Component) (hi lo : UInt8) : Option UInt8 := do
  let h ← hexValue? hi
  let l ← hexValue? lo
  let value := (h * 16 + l).toUInt8
  let isPercent := hi = 0x32 ∧ lo = 0x35
  match component with
  | .host => if h < 8 ∧ ¬ isPercent then none else some value
  | .zone =>
    if ¬ isPercent ∧ value ≠ 0x20 ∧ Component.host.escapes value then none else some value
  | _ => some value

/-- Whether an octet may stand unescaped in a component that is read. -/
def Component.accepts (component : Component) (b : UInt8) : Bool :=
  match component with
  | .host | .zone => !(b < 0x80 && component.escapes b)
  | _ => true

/-- Reads the octets of a component; a wrong escape is given back with the error. -/
def Component.unescape (component : Component) : Octets → Except Octets Octets
  | [] => .ok []
  | 0x25 :: hi :: lo :: rest =>
    match component.unescapeCode? hi lo with
    | none => .error [0x25, hi, lo]
    | some value => (component.unescape rest).map (value :: ·)
  | b :: rest =>
    if b = 0x25 then .error (b :: rest)
    else if component.accepts b then
      let value : UInt8 := if b = 0x2b ∧ component = .query then 0x20 else b
      (component.unescape rest).map (value :: ·)
    else .error [b]

/-- Reads the octets of a component. -/
def Component.unescape? (component : Component) (octets : Octets) : Option Octets :=
  (component.unescape octets).toOption

end ServiceCompiler.Url
