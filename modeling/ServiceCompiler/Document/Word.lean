import ServiceCompiler.Document.Cursor
import ServiceCompiler.Text.Octets

namespace ServiceCompiler.Document

/-!
# Reading scalars

The four kinds of scalars as they stand in a document: plain, between single quotes, between double
quotes, and as a block of lines.  Every reader gives the text and the cursor after it.
-/

namespace Cursor

/-! ### Plain scalars -/

/-- The characters up to a gap or a mark that ends a plain scalar.  Inside brackets there are more
    such marks. -/
def plainWord (inFlow : Bool) : List Char → List Char
  | [] => []
  | c :: cs =>
    if isGap c || isBreak c || (c == ':' && startsGap cs)
        || (inFlow && ",?[]\x7b\x7d".toList.contains c) then []
    else c :: plainWord inFlow cs

/-- Reads on in a plain scalar: `taken` was read and `gap` lies behind it.  The last gap tells whether
    the scalar ended with its line. -/
def plainFrom (inFlow : Bool) (column : Int) :
    Nat → List Char → Gap → Cursor → Option (List Char × Gap × Cursor)
  | 0, taken, gap, c => some (taken, gap, c)
  | fuel + 1, taken, gap, c =>
    if c.atDocumentMark || c.at_ '#' then some (taken, gap, c)
    else
      let word := plainWord inFlow c.rest
      let after := c.skip word.length
      let taken := if word.isEmpty then taken else taken ++ gap.joined ++ word
      let gap := if word.isEmpty then gap else .spaces []
      if after.rest.isEmpty || !startsGap after.rest then some (taken, gap, after)
      else do
        let (gap, next) ← Gap.read? column gap after.rest after.mark
        if !inFlow && (next.mark.column : Int) < column then some (taken, gap, next)
        else plainFrom inFlow column fuel taken gap next

/-- A plain scalar; further lines have to reach the column. -/
def plain? (inFlow : Bool) (column : Int) (c : Cursor) : Option (List Char × Gap × Cursor) :=
  plainFrom inFlow column (c.rest.length + 1) [] (.spaces []) c

/-! ### Quoted scalars -/

/-- The characters up to a gap or the closing quote; a doubled quote stands for one.  The number tells
    how many characters were read. -/
def singleWord : List Char → List Char × Nat
  | '\'' :: '\'' :: cs => let (word, n) := singleWord cs; ('\'' :: word, n + 2)
  | c :: cs =>
    if c == '\'' || isGap c || isBreak c then ([], 0)
    else let (word, n) := singleWord cs; (c :: word, n + 1)
  | [] => ([], 0)

/-- A character given by the number of some hexadecimal digits. -/
def codedChar? (width : Nat) (cs : List Char) : Option Char := do
  let digits := cs.take width
  if digits.length < width then none
  let n ← Text.natOf? 16 digits
  if n.isValidChar then some (Char.ofNat n) else none

/-- The character that follows a backslash stands for, and how many characters it takes. -/
def escaped? : List Char → Option (Char × Nat)
  | [] => none
  | c :: cs =>
    match c with
    | '0' => some (Char.ofNat 0, 1)
    | 'a' => some (Char.ofNat 7, 1)
    | 'b' => some (Char.ofNat 8, 1)
    | 't' => some ('\t', 1)
    | '\t' => some ('\t', 1)
    | 'n' => some ('\n', 1)
    | 'v' => some (Char.ofNat 11, 1)
    | 'f' => some (Char.ofNat 12, 1)
    | 'r' => some ('\r', 1)
    | 'e' => some (Char.ofNat 0x1b, 1)
    | ' ' => some (' ', 1)
    | '"' => some ('"', 1)
    | '\'' => some ('\'', 1)
    | '\\' => some ('\\', 1)
    | 'N' => some (Char.ofNat 0x85, 1)
    | '_' => some (Char.ofNat 0xa0, 1)
    | 'L' => some (Char.ofNat 0x2028, 1)
    | 'P' => some (Char.ofNat 0x2029, 1)
    | 'x' => (codedChar? 2 cs).map fun d => (d, 3)
    | 'u' => (codedChar? 4 cs).map fun d => (d, 5)
    | 'U' => (codedChar? 8 cs).map fun d => (d, 9)
    | _ => none

/-- The characters up to a gap, the closing quote or a backslash at the end of a line. -/
def doubleWord? : Nat → List Char → Option (List Char × Nat)
  | 0, _ => some ([], 0)
  | _, [] => some ([], 0)
  | fuel + 1, '\\' :: cs =>
    if !cs.isEmpty && startsBreak cs then some ([], 0)
    else do
      let (c, n) ← escaped? cs
      let (word, m) ← doubleWord? fuel (cs.drop n)
      return (c :: word, 1 + n + m)
  | fuel + 1, c :: cs =>
    if c == '"' || isGap c || isBreak c then some ([], 0)
    else do
      let (word, n) ← doubleWord? fuel cs
      return (c :: word, n + 1)

/-- Reads on in a quoted scalar, of which a text was read.  It has to be closed before the end of its
    document. -/
def quotedFrom (quote : Char) : Nat → List Char → Cursor → Option (List Char × Cursor)
  | 0, _, _ => none
  | fuel + 1, taken, c =>
    if c.atDocumentMark || c.rest.isEmpty then none
    else do
      let (word, n) ←
        if quote == '\'' then some (singleWord c.rest) else doubleWord? c.rest.length c.rest
      let taken := taken ++ word
      let c := c.skip n
      let joinsLines := quote == '"' && c.at_ '\\'
      let c := if joinsLines then (c.skip 1).readBreak.2 else c
      if c.at_ quote then return (taken, c.skip 1)
      let (gap, c) ← Gap.read? 0 (if joinsLines then .breaks [] [] else .spaces []) c.rest c.mark
      quotedFrom quote fuel (taken ++ gap.joined) c

/-- A quoted scalar; the cursor stands at the opening quote. -/
def quoted? (quote : Char) (c : Cursor) : Option (List Char × Cursor) :=
  quotedFrom quote (c.rest.length + 1) [] (c.skip 1)

/-! ### Block scalars -/

/-- What happens to the line breaks at the end of a block. -/
inductive Chomp where
  | strip
  | clip
  | keep
  deriving DecidableEq, Repr

/-- The mark for the line breaks at the end. -/
def chomp? : Option Char → Option Chomp
  | some '+' => some .keep
  | some '-' => some .strip
  | _ => none

/-- The marks at the head of a block, in either order: what to do with the line breaks at the end, and
    the indentation, zero when it is not given.  An indentation of zero is refused. -/
def blockMarks? (c : Cursor) : Option (Chomp × Nat × Cursor) :=
  let digit? := fun (c : Cursor) => (c.head?.filter Text.isDigit).map fun d => d.toNat - 48
  match chomp? c.head? with
  | some chomp =>
    let c := c.skip 1
    match digit? c with
    | some 0 => none
    | some n => some (chomp, n, c.skip 1)
    | none => some (chomp, 0, c)
  | none =>
    match digit? c with
    | some 0 => none
    | some n =>
      let c := c.skip 1
      match chomp? c.head? with
      | some chomp => some (chomp, n, c.skip 1)
      | none => some (.clip, n, c)
    | none => some (.clip, 0, c)

/-- Reads the indentation and empty lines before a line of a block.  The indentation is zero as long
    as it is not known; `widest` is the widest one seen. -/
def blockGap? (indent : Nat) : Nat → List Char → List Char → Mark → Option (Nat × List Char × Cursor)
  | widest, breaks, '\r' :: '\n' :: cs, m =>
    blockGap? indent (max widest m.column) (breaks ++ ['\n']) cs (m.nextLine 2)
  | widest, breaks, c :: cs, m =>
    let isInside := indent == 0 || m.column < indent
    if isInside && c == ' ' then blockGap? indent widest breaks cs (m.ahead 1)
    else if isInside && c == '\t' then none
    else if isBreak c then
      blockGap? indent (max widest m.column) (breaks ++ breakText c) cs (m.nextLine 1)
    else some (max widest m.column, breaks, ⟨c :: cs, m⟩)
  | widest, breaks, [], m => some (max widest m.column, breaks, ⟨[], m⟩)

/-- Reads the lines of a block.  `first` and `further` are the line breaks behind what was read, and
    `afterGap` tells whether the line before begins with a gap. -/
def blockFrom (folded : Bool) (indent : Nat) (chomp : Chomp) :
    Nat → List Char → List Char → List Char → Bool → Cursor → Option (List Char × Cursor)
  | 0, _, _, _, _, _ => none
  | fuel + 1, taken, first, further, afterGap, c =>
    if c.mark.column != indent || c.rest.isEmpty then
      let tail :=
        match chomp with
        | .strip => []
        | .clip => first
        | .keep => first ++ further
      some (taken ++ tail, c)
    else do
      let isGapped := (c.head?.map isGap).getD false
      let joint :=
        if folded && !afterGap && !isGapped && first.head? == some '\n' then
          (if further.isEmpty then [' '] else [])
        else first
      let (line, c) := c.run (!isBreak ·)
      let (first', c) := c.readBreak
      let (_, further', c) ← blockGap? indent 0 [] c.rest c.mark
      blockFrom folded indent chomp fuel (taken ++ joint ++ further ++ line) first' further' isGapped c

/-- A block scalar inside a block of the given indentation; the cursor stands behind its first
    character. -/
def block? (folded : Bool) (outer : Int) (c : Cursor) : Option (List Char × Cursor) := do
  let (chomp, given, c) ← blockMarks? c
  let (_, c) := c.run isGap
  let c := if c.at_ '#' then (c.run (!isBreak ·)).2 else c
  if !startsBreak c.rest then none
  let (_, c) := c.readBreak
  let known := if given = 0 then 0 else (max outer 0).toNat + given
  let (widest, breaks, c) ← blockGap? known 0 [] c.rest c.mark
  let indent := if known = 0 then max widest (max (outer + 1) 1).toNat else known
  blockFrom folded indent chomp (c.rest.length + 1) [] [] breaks false c

end Cursor

end ServiceCompiler.Document
