import ServiceCompiler.Document.Token
import ServiceCompiler.Document.Window
import ServiceCompiler.Document.Word

namespace ServiceCompiler.Document

/-!
# From text to tokens

The lexer keeps the indentation of the open blocks and, for every open bracket, the place where a key
without a mark of its own may have started: whether it is one shows only when the colon comes, at most
a line and 1024 characters later.  Tokens are read as they are asked for, two ahead of the one that is
handed out, and further where a key may have started there.
-/

/-- A place where a key may have started: the number of tokens before it, whether there has to be one,
    and whether the colon is waited for before the token is handed out. -/
structure SimpleKey where
  index : Nat
  isRequired : Bool
  mark : Mark
  isAwaited : Bool := true
  deriving DecidableEq, Repr

/-- What is known inside a bracket, or outside of all: the number of tokens before the bracket, the
    place where a key may have started, and whether there was such a place at all. -/
structure Level where
  start : Nat := 0
  key : Option SimpleKey := none
  isUsed : Bool := false
  deriving DecidableEq, Repr

/-- The state of reading: the tokens that were read and not handed out, the number of those handed out,
    the indentation of the open blocks, and the level of each open bracket, innermost first. -/
structure Lexer where
  cursor : Cursor
  window : Window
  queue : List Token := []
  taken : Nat := 0
  indent : Int := -1
  outer : List Int := []
  levels : List Level := [{}]
  keyAllowed : Bool := true
  deriving Repr

namespace Lexer

/-- How many blocks or brackets may be open. -/
def nestingLimit : Nat := 10000

/-- Whether a bracket is open. -/
def inFlow (l : Lexer) : Bool :=
  match l.levels with
  | _ :: _ :: _ => true
  | _ => false

/-- The current column. -/
def column (l : Lexer) : Nat := l.cursor.mark.column

/-- The number of tokens read so far. -/
def count (l : Lexer) : Nat := l.taken + l.queue.length

/-- The lexer with a further token. -/
def emit (l : Lexer) (kind : TokenKind) (mark : Mark) : Lexer :=
  { l with queue := l.queue ++ [⟨kind, mark.line⟩] }

/-- The lexer with a token after the given number of tokens; at the end when that place was handed out
    already. -/
def insert (l : Lexer) (index : Nat) (kind : TokenKind) (mark : Mark) : Lexer :=
  if index < l.taken then l.emit kind mark
  else
    let place := index - l.taken
    { l with queue := l.queue.take place ++ ⟨kind, mark.line⟩ :: l.queue.drop place }

/-- The lexer with a token of some characters. -/
def emitMark (l : Lexer) (kind : TokenKind) (count : Nat) : Lexer :=
  { l.emit kind l.cursor.mark with cursor := l.cursor.skip count }

/-- Looks some characters ahead. -/
def want? (l : Lexer) (count : Nat) : Option Lexer :=
  (l.window.want? l.cursor count).map fun window => { l with window }

/-! ### Possible keys -/

/-- Whether the colon may still belong to a key. -/
def isFresh (l : Lexer) (k : SimpleKey) : Bool :=
  !(k.mark.line < l.cursor.mark.line || k.mark.offset + 1024 < l.cursor.mark.offset)

/-- The possible key of the innermost bracket. -/
def key? (l : Lexer) : Option SimpleKey := l.levels.head?.bind (·.key)

/-- The lexer without a possible key in the innermost bracket. -/
def forgetKey (l : Lexer) : Lexer :=
  { l with levels := l.levels.modifyHead ({ · with key := none }) }

/-- Gives up the possible key of the innermost bracket, unless it has to be one. -/
def dropKey? (l : Lexer) : Option Lexer :=
  if (l.key?.map (·.isRequired)).getD false then none else some l.forgetKey

/-- Notes that a key may start here. -/
def noteKey? (l : Lexer) : Option Lexer :=
  if l.keyAllowed then do
    let l ← l.dropKey?
    let key : SimpleKey :=
      { index := l.count
        isRequired := !l.inFlow && l.indent == l.column
        mark := l.cursor.mark }
    return { l with levels := l.levels.modifyHead ({ · with key := some key, isUsed := true }) }
  else some l

/-- The level with its key no longer waited for, when that starts with the given token. -/
def Level.release (index : Nat) (v : Level) : Level :=
  { v with key := v.key.map fun k => if k.index = index then { k with isAwaited := false } else k }

/-- Leaves a bracket.  When no key could have started inside, that in front of it is not waited for
    any longer. -/
def leave (l : Lexer) : Lexer :=
  match l.levels with
  | inner :: rest@(_ :: _) =>
    { l with levels := if inner.isUsed then rest else rest.modifyHead (Level.release inner.start) }
  | _ => l

/-- Whether a key may start with the next token to be handed out; `none` when there had to be one. -/
def awaitsKey? (l : Lexer) : Option Bool :=
  match l.levels.findSome? fun v => v.key.filter fun k => k.isAwaited && k.index == l.taken with
  | none => some false
  | some k => if l.isFresh k then some true else if k.isRequired then none else some false

/-! ### Blocks -/

/-- Opens a block at a column, if it is further in than the current one. -/
def openBlock? (l : Lexer) (column index : Nat) (kind : TokenKind) (mark : Mark) : Option Lexer :=
  if !l.inFlow && l.indent < column then
    if l.outer.length < nestingLimit then
      some { l.insert index kind mark with indent := column, outer := l.indent :: l.outer }
    else none
  else some l

/-- Closes the blocks further in than a column; `outer` are the indentations around the current
    one. -/
def closeFrom (column : Int) (l : Lexer) : Int → List Int → Lexer
  | indent, [] => { l with indent, outer := [] }
  | indent, o :: outer =>
    if indent > column then closeFrom column (l.emit .blockEnd l.cursor.mark) o outer
    else { l with indent, outer := o :: outer }

/-- Closes the blocks further in than a column.  Inside brackets indentation means nothing. -/
def closeBlocks (l : Lexer) (column : Int) : Lexer :=
  if l.inFlow then l else closeFrom column l l.indent l.outer

/-! ### Between tokens -/

/-- Whether the character lies between two comments: a gap or a line end of one octet. -/
def isCommentGap (c : Char) : Bool := isGap c || c == '\n' || c == '\r'

/-- Skips a comment and those that follow it after nothing but gaps; these have to begin within 512
    characters. -/
def skipComments? : Nat → Lexer → Option Lexer
  | 0, l => some l
  | fuel + 1, l => do
    let (taken, c) := l.cursor.run (!isBreak ·)
    let window ← l.window.along? 1 (taken.length + 1) l.cursor
    let gap := c.rest.takeWhile isCommentGap
    let window ← window.peek? c (min (gap.length + 1) Piece.limit)
    let next ← (Gap.read? 0 (.breaks [] []) c.rest c.mark).map (·.2)
    if (c.rest.drop gap.length).head? == some '#' && gap.length < Piece.limit then
      let window ← window.alongWords? gap.length true c
      skipComments? fuel { l with cursor := next, window }
    else return { l with cursor := c, window }

/-- Skips gaps and comments.  A tab does not count as a gap where a key may start.  Where a byte order
    mark is the first character at hand, the first character of a line is skipped too. -/
def skipGaps? : Nat → Lexer → Option Lexer
  | 0, l => some l
  | fuel + 1, l => do
    let l ← l.want? 1
    let l := if l.column == 0 && l.window.isMarked then { l with cursor := l.cursor.skip 1 } else l
    let tabs := l.inFlow || !l.keyAllowed
    let (gap, c) := l.cursor.run fun d => d == ' ' || (tabs && d == '\t')
    let window ← l.window.along? 1 (gap.length + 1) l.cursor
    let l := { l with cursor := c, window }
    let l ← if c.at_ '#' then skipComments? (c.rest.length + 1) l else some l
    if !l.cursor.rest.isEmpty && startsBreak l.cursor.rest then
      let l ← l.want? 2
      skipGaps? fuel { l with
        cursor := l.cursor.readBreak.2
        keyAllowed := l.keyAllowed || !l.inFlow }
    else return l

/-- Skips a comment behind a token on the same line. -/
def skipLineComment? (l : Lexer) : Option Lexer := do
  let (gap, c) := l.cursor.run isGap
  let window ← l.window.peek? l.cursor (min (gap.length + 1) Piece.limit)
  if c.at_ '#' && gap.length < Piece.limit then
    let (taken, after) := c.run (!isBreak ·)
    let window ← window.along? 1 (gap.length + taken.length + 1) l.cursor
    return { l with cursor := after, window }
  else return { l with window }

/-! ### Directives -/

/-- Whether the character may stand in a name. -/
def isNameChar (c : Char) : Bool := Text.isWordChar c || c == '-'

def versionNumber? (c : Cursor) : Option (Nat × Cursor) := do
  let (digits, c) := c.run Text.isDigit
  if digits.length > 2 then none
  let n ← Text.natOf? 10 digits
  return (n, c)

/-- A tag handle: two exclamation marks around a name, or one in front of it. -/
def tagHandle? (isDirective : Bool) (c : Cursor) : Option (List Char × Cursor) := do
  if !c.at_ '!' then none
  let (name, c) := (c.skip 1).run isNameChar
  if c.at_ '!' then return ('!' :: name ++ ['!'], c.skip 1)
  if isDirective && !name.isEmpty then none
  return ('!' :: name, c)

/-- Whether the character may stand in a tag. -/
def isTagChar (c : Char) : Bool :=
  isNameChar c || ";/?:@&=+$,.!~*'()[]%".toList.contains c

/-- How many octets a character takes that begins with this one. -/
def octetWidth (b : Nat) : Option Nat :=
  if b < 0x80 then some 1
  else if 0xc0 ≤ b ∧ b < 0xe0 then some 2
  else if 0xe0 ≤ b ∧ b < 0xf0 then some 3
  else if 0xf0 ≤ b ∧ b < 0xf8 then some 4
  else none

/-- An octet written with a percent sign. -/
def percentOctet? : List Char → Option Nat
  | '%' :: a :: b :: _ => Text.natOf? 16 [a, b]
  | _ => none

/-- Some further octets of a character. -/
def moreOctets? : Nat → List Char → Option (List Nat)
  | 0, _ => some []
  | count + 1, cs => do
    let b ← percentOctet? cs
    if b / 64 != 2 then none
    let bs ← moreOctets? count (cs.drop 3)
    return b :: bs

/-- The octets of a tag and how many characters it takes; percent signs stand for octets. -/
def tagOctets? : Nat → List Char → Option (Text.Octets × Nat)
  | 0, _ => some ([], 0)
  | _, [] => some ([], 0)
  | fuel + 1, c :: cs =>
    if !isTagChar c then some ([], 0)
    else if c = '%' then do
      let b ← percentOctet? (c :: cs)
      let width ← octetWidth b
      let bs ← moreOctets? (width - 1) (cs.drop 2)
      let (octets, n) ← tagOctets? fuel (cs.drop (3 * width - 1))
      return ((b :: bs).map Nat.toUInt8 ++ octets, 3 * width + n)
    else do
      let (octets, n) ← tagOctets? fuel cs
      return (Text.Octets.ofString (String.singleton c) ++ octets, n + 1)

def tagText? (c : Cursor) : Option (List Char × Cursor) := do
  let (octets, n) ← tagOctets? c.rest.length c.rest
  return (octets.toChars, c.skip n)

/-- The tokens of a directive; the cursor stands at the percent sign. -/
def directive? (c : Cursor) : Option (TokenKind × Cursor) := do
  let (name, c) := (c.skip 1).run isNameChar
  if name.isEmpty || !startsGap c.rest then none
  let (kind, c) ←
    if name = "YAML".toList then do
      let (major, c) ← versionNumber? (c.run isGap).2
      if !c.at_ '.' then none
      let (minor, c) ← versionNumber? (c.skip 1)
      some (TokenKind.versionDirective major minor, c)
    else if name = "TAG".toList then do
      let (handle, c) ← tagHandle? true (c.run isGap).2
      if !(c.head?.map isGap).getD false then none
      let (lead, c) ← tagText? (c.run isGap).2
      if lead.isEmpty || !startsGap c.rest then none
      some (.tagDirective (String.ofList handle) (String.ofList lead), c)
    else none
  let (_, c) := c.run isGap
  let c := if c.at_ '#' then (c.run (!isBreak ·)).2 else c
  if !startsBreak c.rest then none
  return (kind, c.readBreak.2)

/-! ### Properties of nodes -/

/-- The name of an anchor or alias; the cursor stands at its mark. -/
def anchorName? (c : Cursor) : Option (String × Cursor) :=
  let (name, c) := (c.skip 1).run isNameChar
  let ends := startsGap c.rest || (c.head?.map ("?:,]\x7d%@\x60".toList.contains ·)).getD false
  if name.isEmpty || !ends then none else some (String.ofList name, c)

/-- A tag; the cursor stands at its exclamation mark. -/
def tag? (c : Cursor) : Option (TokenKind × Cursor) := do
  let (handle, suffix, c) ←
    if c.rest.take 2 == ['!', '<'] then do
      let (taken, c) ← tagText? (c.skip 2)
      if taken.isEmpty || !c.at_ '>' then none
      some ([], taken, c.skip 1)
    else do
      let (handle, c) ← tagHandle? false c
      if handle.length > 1 && handle.getLast? == some '!' then do
        let (taken, c) ← tagText? c
        if taken.isEmpty then none
        some (handle, taken, c)
      else do
        let (taken, c) ← tagText? c
        let suffix := handle.drop 1 ++ taken
        some (if suffix.isEmpty then ([], handle, c) else (['!'], suffix, c))
  if !startsGap c.rest then none
  return (.tag (String.ofList handle) (String.ofList suffix), c)

/-! ### Tokens -/

def openBracket? (l : Lexer) (kind : TokenKind) : Option Lexer := do
  let l ← l.noteKey?
  if l.levels.length > nestingLimit then none
  return { l.emitMark kind 1 with levels := { start := l.count } :: l.levels, keyAllowed := true }

def closeBracket? (l : Lexer) (kind : TokenKind) : Option Lexer := do
  let l ← l.dropKey?
  return { l.leave.emitMark kind 1 with keyAllowed := false }

def comma? (l : Lexer) : Option Lexer := do
  let l ← l.dropKey?
  return { l.emitMark .flowEntry 1 with keyAllowed := true }

def dash? (l : Lexer) : Option Lexer := do
  if !l.inFlow && !l.keyAllowed then none
  let l ← l.openBlock? l.column l.count .blockSequenceStart l.cursor.mark
  let l ← l.dropKey?
  return { l.emitMark .blockEntry 1 with keyAllowed := true }

/-- A question mark. -/
def question? (l : Lexer) : Option Lexer := do
  if !l.inFlow && !l.keyAllowed then none
  let l ← l.openBlock? l.column l.count .blockMappingStart l.cursor.mark
  let l ← l.dropKey?
  return { l.emitMark .key 1 with keyAllowed := !l.inFlow }

/-- A colon: the possible key before it becomes one; without it a value may start a line. -/
def colon? (l : Lexer) : Option Lexer := do
  let key ←
    match l.key? with
    | some k => if l.isFresh k then some (some k) else if k.isRequired then none else some none
    | none => some none
  match key with
  | some k =>
    let l := l.insert k.index .key k.mark
    let l ← l.openBlock? k.mark.column k.index .blockMappingStart k.mark
    return { l.forgetKey.emitMark .value 1 with keyAllowed := false }
  | none =>
    if !l.inFlow && !l.keyAllowed then none
    let l ← l.openBlock? l.column l.count .blockMappingStart l.cursor.mark
    return { l.forgetKey.emitMark .value 1 with keyAllowed := !l.inFlow }

/-- An anchor, alias or tag, of which the kind and the cursor after it are known. -/
def property? (l : Lexer) (read : Option (TokenKind × Cursor)) : Option Lexer := do
  let l ← l.noteKey?
  let (kind, c) ← read
  let window ← l.window.along? 1 (c.mark.offset - l.cursor.mark.offset) (l.cursor.skip 1)
  return { l.emit kind l.cursor.mark with cursor := c, window, keyAllowed := false }

def blockScalar? (l : Lexer) (folded : Bool) : Option Lexer := do
  let l ← l.dropKey?
  let (taken, c) ← (l.cursor.skip 1).block? folded l.indent
  let window ← l.window.along? 1 (c.mark.offset - l.cursor.mark.offset) (l.cursor.skip 1)
  return { l.emit (.scalar false (String.ofList taken)) l.cursor.mark with
    cursor := c, window, keyAllowed := true }

def quotedScalar? (l : Lexer) (quote : Char) : Option Lexer := do
  let l ← l.noteKey?
  let (taken, c) ← l.cursor.quoted? quote
  let length := c.mark.offset - l.cursor.mark.offset
  let window ← l.window.alongWords? (length - 1) true (l.cursor.skip 1)
  return { l.emit (.scalar false (String.ofList taken)) l.cursor.mark with
    cursor := c, window, keyAllowed := false }

/-- A plain scalar; a comment behind it is left where the scalar ended with its line. -/
def plainScalar? (l : Lexer) : Option Lexer := do
  let l ← l.noteKey?
  let (taken, gap, c) ← l.cursor.plain? l.inFlow (l.indent + 1)
  let window ← l.window.alongWords? (c.mark.offset - l.cursor.mark.offset) true l.cursor
  let ahead :=
    if gap = .spaces [] then 2
    else if !l.inFlow && (c.mark.column : Int) ≤ l.indent then 1
    else 4
  let window ← window.want? c ahead
  let l := { l.emit (.scalar true (String.ofList taken)) l.cursor.mark with
    cursor := c, window, keyAllowed := gap.isBroken }
  if gap.isBroken then return l else l.skipLineComment?

/-- Whether a plain scalar may start with the first character. -/
def startsPlain (inFlow : Bool) : List Char → Bool
  | [] => false
  | c :: cs =>
    !(isGap c || isBreak c || "-?:,[]\x7b\x7d#&*!|>'\"%@\x60".toList.contains c)
      || (c == '-' && !(cs.head?.map isGap).getD false)
      || (!inFlow && (c == '?' || c == ':') && !startsGap cs)

/-- Closes all blocks and starts or ends a document. -/
def documentMark? (l : Lexer) (kind : TokenKind) : Option Lexer := do
  let l ← (l.closeBlocks (-1)).dropKey?
  return { l.emitMark kind 3 with keyAllowed := false }

def directiveToken? (l : Lexer) : Option Lexer := do
  let l ← (l.closeBlocks (-1)).dropKey?
  let (kind, c) ← directive? l.cursor
  let window ← l.window.along? 1 (c.mark.offset - l.cursor.mark.offset) (l.cursor.skip 1)
  return { l.emit kind l.cursor.mark with cursor := c, window, keyAllowed := false }

/-- The end of the text. -/
def streamEnd? (l : Lexer) : Option Lexer := do
  let l ← (l.closeBlocks (-1)).dropKey?
  return { l.emit .streamEnd l.cursor.mark with keyAllowed := false }

/-- The next token inside a document. -/
def contentToken? (l : Lexer) : Option Lexer :=
  let cs := l.cursor.rest
  let behind := cs.drop 1
  match cs.head? with
  | none => none
  | some c =>
    if c = '[' then l.openBracket? .flowSequenceStart >>= skipLineComment?
    else if c = '\x7b' then l.openBracket? .flowMappingStart >>= skipLineComment?
    else if c = ']' then l.closeBracket? .flowSequenceEnd >>= skipLineComment?
    else if c = '\x7d' then l.closeBracket? .flowMappingEnd >>= skipLineComment?
    else if c = ',' then l.comma? >>= skipLineComment?
    else if c = '-' ∧ startsGap behind then l.dash?
    else if c = '?' ∧ (l.inFlow ∨ startsGap behind) then l.question? >>= skipLineComment?
    else if c = ':' ∧ (l.inFlow ∨ startsGap behind) then l.colon? >>= skipLineComment?
    else if c = '*' then
      l.property? ((anchorName? l.cursor).map fun (n, c) => (.alias n, c)) >>= skipLineComment?
    else if c = '&' then
      l.property? ((anchorName? l.cursor).map fun (n, c) => (.anchor n, c)) >>= skipLineComment?
    else if c = '!' then l.property? (tag? l.cursor) >>= skipLineComment?
    else if c = '|' ∧ !l.inFlow then l.blockScalar? false
    else if c = '>' ∧ !l.inFlow then l.blockScalar? true
    else if c = '\'' ∨ c = '"' then l.quotedScalar? c >>= skipLineComment?
    else if startsPlain l.inFlow cs then l.plainScalar?
    else none

/-- The lexer after the next token. -/
def next? (l : Lexer) : Option Lexer := do
  let l ← skipGaps? (l.cursor.rest.length + 1) l
  let l ← (l.closeBlocks l.column).want? 4
  if l.cursor.rest.isEmpty then l.streamEnd?
  else if l.column == 0 && l.cursor.at_ '%' then l.directiveToken?
  else if l.cursor.atDocumentMark then
    l.documentMark? (if l.cursor.at_ '-' then .documentStart else .documentEnd)
  else l.contentToken?

/-! ### Handing out tokens -/

/-- Reads tokens until there are two behind the first and it is known whether a key starts there. -/
def fillFrom? : Nat → Lexer → Option Lexer
  | 0, _ => none
  | fuel + 1, l => do
    if l.queue.length > 2 then
      if !(← l.awaitsKey?) then return l
    fillFrom? fuel (← l.next?)

/-- The lexer with a token that can be handed out. -/
def filled? (l : Lexer) : Option Lexer := fillFrom? (l.cursor.rest.length + 5) l

/-- The lexer after its first token was handed out. -/
def handOut (l : Lexer) : Lexer := { l with queue := l.queue.drop 1, taken := l.taken + 1 }

/-- A lexer at the beginning of a text; a byte order mark there counts for nothing. -/
def ofText (cs : List Char) : Lexer :=
  match Text.stripLead? [byteOrderMark] cs with
  | some rest =>
    { cursor := ⟨rest, {}⟩
      window := { ahead := Piece.cut (Piece.limit - byteOrderMark.utf8Size) ⟨0, true⟩ rest } }
  | none => { cursor := ⟨cs, {}⟩, window := { ahead := Piece.cut Piece.limit ⟨0, true⟩ cs } }

end Lexer

end ServiceCompiler.Document
