import ServiceCompiler.Text.Octets

namespace ServiceCompiler.Document

/-!
# Binary data

Octets written with 64 characters, four characters for three octets, padded with equal signs.
-/

/-- The number that a character stands for. -/
def base64Digit? (c : Char) : Option Nat :=
  if 'A' ≤ c ∧ c ≤ 'Z' then some (c.toNat - 65)
  else if 'a' ≤ c ∧ c ≤ 'z' then some (c.toNat - 71)
  else if '0' ≤ c ∧ c ≤ '9' then some (c.toNat + 4)
  else if c = '+' then some 62
  else if c = '/' then some 63
  else none

/-- The first octets of a number of 24 bits. -/
def base64Octets (n count : Nat) : Text.Octets :=
  [(n / 65536).toUInt8, (n / 256 % 256).toUInt8, (n % 256).toUInt8].take count

/-- The octets that groups of four characters stand for. -/
def base64Groups? : List Char → Option Text.Octets
  | [] => some []
  | [a, b, '=', '='] => do
    let a ← base64Digit? a
    let b ← base64Digit? b
    return base64Octets (a * 262144 + b * 4096) 1
  | [a, b, c, '='] => do
    let a ← base64Digit? a
    let b ← base64Digit? b
    let c ← base64Digit? c
    return base64Octets (a * 262144 + b * 4096 + c * 64) 2
  | a :: b :: c :: d :: rest => do
    let a ← base64Digit? a
    let b ← base64Digit? b
    let c ← base64Digit? c
    let d ← base64Digit? d
    let octets ← base64Groups? rest
    return base64Octets (a * 262144 + b * 4096 + c * 64 + d) 3 ++ octets
  | _ => none

/-- The octets that a text stands for; line breaks in it count for nothing. -/
def base64? (cs : List Char) : Option Text.Octets :=
  base64Groups? (cs.filter fun c => c != '\n' && c != '\r')

end ServiceCompiler.Document
