import ServiceCompiler.Text.Quoted

namespace ServiceCompiler.Text

/-!
# Octets

Text that was written with percent escapes may hold octets that are no UTF-8.  Such text is kept as
a list of octets; it is decoded only to be shown, where an octet that belongs to no character is
replaced (`Octets.toText`) or written as an escape (`Octets.quoted`).
-/

/-- A text as its octets. -/
abbrev Octets := List UInt8

namespace Octets

/-- The UTF-8 octets of a text. -/
def ofString (s : String) : Octets := s.toList.flatMap String.utf8EncodeChar

/-- Whether the octet continues a character. -/
def continues (b : UInt8) : Bool := 0x80 ≤ b && b ≤ 0xbf

/-- The low bits that a continuing octet carries. -/
def payload (b : UInt8) : Nat := b.toNat % 64

/-- The character that the octets begin with and the number of octets it takes.  Overlong forms,
    surrogates and code points beyond the last one are no characters. -/
def firstChar? : Octets → Option (Char × Nat)
  | [] => none
  | a :: rest =>
    if a < 0x80 then some (Char.ofNat a.toNat, 1)
    else if 0xc2 ≤ a && a ≤ 0xdf then
      match rest with
      | b :: _ =>
        if continues b then some (Char.ofNat ((a.toNat - 0xc0) * 64 + payload b), 2) else none
      | _ => none
    else if 0xe0 ≤ a && a ≤ 0xef then
      match rest with
      | b :: c :: _ =>
        let n := (a.toNat - 0xe0) * 4096 + payload b * 64 + payload c
        if continues b && continues c && 0x800 ≤ n && !(0xd800 ≤ n && n ≤ 0xdfff) then
          some (Char.ofNat n, 3)
        else none
      | _ => none
    else if 0xf0 ≤ a && a ≤ 0xf4 then
      match rest with
      | b :: c :: d :: _ =>
        let n := (a.toNat - 0xf0) * 262144 + payload b * 4096 + payload c * 64 + payload d
        if continues b && continues c && continues d && 0x10000 ≤ n && n ≤ 0x10ffff then
          some (Char.ofNat n, 4)
        else none
      | _ => none
    else none

/-- A piece of decoded text: a character, or an octet that belongs to none. -/
inductive Piece where
  | char (c : Char)
  | stray (b : UInt8)
  deriving DecidableEq, Repr

/-- The pieces of the octets, the first `skip` of which belong to a character already read. -/
def piecesFrom : Nat → Octets → List Piece
  | _, [] => []
  | skip + 1, _ :: rest => piecesFrom skip rest
  | 0, b :: rest =>
    match firstChar? (b :: rest) with
    | some (c, width) => .char c :: piecesFrom (width - 1) rest
    | none => .stray b :: piecesFrom 0 rest

def pieces (octets : Octets) : List Piece := piecesFrom 0 octets

/-- The characters of the octets; a stray octet counts as the replacement character. -/
def toChars (octets : Octets) : List Char :=
  octets.pieces.map fun
    | .char c => c
    | .stray _ => '�'

/-- The text of the octets; a stray octet is shown as the replacement character. -/
def toText (octets : Octets) : String := String.ofList octets.toChars

/-- The octets as quoted text; a stray octet is written as an escape. -/
def quoted (octets : Octets) : String :=
  String.ofList ('"' :: octets.pieces.flatMap (fun
    | .char c => quoteChar '"' c
    | .stray b => '\\' :: 'x' :: hex 2 b.toNat) ++ ['"'])

/-- The octet of an ASCII character. -/
def ascii (c : Char) : UInt8 := c.toNat.toUInt8

/-- Whether the octet is the given ASCII character. -/
def isChar (c : Char) (b : UInt8) : Bool := b.toNat == c.toNat

/-- The octets before and after the first occurrence of an ASCII character. -/
def cutAt? (c : Char) (octets : Octets) : Option (Octets × Octets) :=
  match octets.span (!isChar c ·) with
  | (_, []) => none
  | (before, _ :: after) => some (before, after)

/-- The octets before and after the last occurrence of an ASCII character. -/
def cutLast? (c : Char) (octets : Octets) : Option (Octets × Octets) :=
  match octets.reverse.span (!isChar c ·) with
  | (_, []) => none
  | (after, _ :: before) => some (before.reverse, after.reverse)

/-- Whether an ASCII character occurs among the octets. -/
def hasChar (c : Char) (octets : Octets) : Bool := octets.any (isChar c)

/-- The pieces between the occurrences of an ASCII character, at least one. -/
def splitOn (c : Char) : Octets → List Octets
  | [] => [[]]
  | b :: rest =>
    if isChar c b then [] :: splitOn c rest
    else
      match splitOn c rest with
      | [] => [[b]]
      | piece :: pieces => (b :: piece) :: pieces

/-- Whether the octet is an ASCII letter. -/
def isLetter (b : UInt8) : Bool := (0x61 ≤ b && b ≤ 0x7a) || (0x41 ≤ b && b ≤ 0x5a)

/-- Whether the octet is an ASCII digit. -/
def isDigit (b : UInt8) : Bool := 0x30 ≤ b && b ≤ 0x39

/-- Whether the octet is one of the ASCII characters of a text. -/
def isOneOf (chars : String) (b : UInt8) : Bool := chars.toList.any fun c => isChar c b

def hexValue? (b : UInt8) : Option Nat := if b < 0x80 then digitValue? (Char.ofNat b.toNat) else none

/-- Bytewise order. -/
def before : Octets → Octets → Bool
  | [], _ => true
  | _ :: _, [] => false
  | a :: as, b :: bs => if a = b then before as bs else a < b

end Octets

end ServiceCompiler.Text
