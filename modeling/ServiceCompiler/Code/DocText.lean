import ServiceCompiler.Text.Octets

namespace ServiceCompiler.Code

open Text

/-!
# Text of documentation comments

The comment in front of a declaration is a small document: paragraphs, headings, indented code,
lists and definitions of links.  The formatter reads it as such and writes every part in one way.

* `DocText.blocks` divides the lines into blocks.
* `DocText.curl` sets doubled quotation marks as curly ones, except inside addresses.
* `DocText.format` is the text as it is written, line by line.
-/

namespace DocText

/-- A line of a comment. -/
abbrev Line := List Char

/-- Whether a character is a space or a tab. -/
def isGap (c : Char) : Bool := c == ' ' || c == '\t'

/-- Whether the line starts with a space or a tab. -/
def isIndented (line : Line) : Bool := (line.head?.map isGap).getD false

/-- The common beginning of two lines. -/
def commonLead : Line → Line → Line
  | a :: as, b :: bs => if a = b then a :: commonLead as bs else []
  | _, _ => []

/-- The lines without the empty ones at both ends. -/
def dropEmptyEnds (lines : List Line) : List Line :=
  ((lines.dropWhile (·.isEmpty)).reverse.dropWhile (·.isEmpty)).reverse

/-- The lines without their common indentation.  A line of blanks counts for the indentation and
    becomes empty. -/
def unindent (lines : List Line) : List Line :=
  match dropEmptyEnds lines with
  | [] => []
  | first :: rest =>
    let lead := fun (l : Line) => l.takeWhile isGap
    let margin := (rest.filter (!·.isEmpty)).foldl (fun m l => commonLead m (lead l)) (lead first)
    dropEmptyEnds ((first :: rest).map fun l =>
      let l := (stripLead? margin l).getD l
      if (trim l).isEmpty then [] else l)

/-! ### Lists and headings -/

/-- The number and the text of a line that starts an item; a bullet has no number. -/
def item? (line : Line) : Option (List Char × Line) :=
  let marker : Option (List Char × Line) :=
    match trim line with
    | [] => none
    | c :: rest =>
      if c = '•' ∨ c = '*' ∨ c = '+' ∨ c = '-' then some ([], rest)
      else
        let digits := (c :: rest).takeWhile isDigit
        if digits.isEmpty then none
        else
          match (c :: rest).drop digits.length with
          | d :: rest => if d = '.' ∨ d = ')' then some (digits, rest) else none
          | [] => none
  marker.filter fun (_, rest) => isIndented rest && !(trim rest).isEmpty

def isItem (line : Line) : Bool := (item? line).isSome

def isHeading (line : Line) : Bool :=
  match line with
  | '#' :: c :: _ => isGap c && trim line != ['#']
  | _ => false

/-- The characters that no heading without a mark has. -/
def noHeadingChars : List Char := ";:!?+*/=[]\x7b\x7d_^°&§~%#@<\">\\".toList

/-- Whether every apostrophe of a line is that of a possessive, and every full stop is inside of a
    word. -/
def hasHeadingMarks : Line → Bool
  | [] => true
  | '\'' :: rest => (rest == ['s'] || hasLead ['s', ' '] rest) && hasHeadingMarks rest
  | '.' :: rest => !rest.isEmpty && rest.head? != some ' ' && hasHeadingMarks rest
  | _ :: rest => hasHeadingMarks rest

/-- Whether the line reads as a heading: it starts with a capital, ends in a letter or digit and has
    no marks of a sentence. -/
def readsAsHeading (line : Line) : Bool :=
  let line := trim line
  (line.head?.map fun c => isLetter c && isCapital c).getD false
    && (line.getLast?.map fun c => isLetter c || isDecimalDigit c).getD false
    && !line.any noHeadingChars.contains
    && hasHeadingMarks line

/-! ### Division into blocks -/

/-- What a span of lines holds. -/
inductive SpanKind where
  | list
  | code
  | heading
  | plainHeading
  | paragraph
  deriving DecidableEq, Repr

/-- The lines from `start` up to `stop`. -/
structure Span where
  start : Nat
  stop : Nat
  kind : SpanKind
  deriving DecidableEq, Repr

/-- The end of indented lines.  Empty lines belong to them, so do the lines before `forced`, and
    where `listOk` holds also items that are not indented, up to the next empty line. -/
def indentedEnd (forced : Nat) : Nat → Bool → List Line → Nat
  | i, _, [] => i
  | i, listOk, l :: rest =>
    if l.isEmpty || i < forced || isIndented l || (listOk && isItem l) then
      indentedEnd forced (i + 1) (listOk && !l.isEmpty) rest
    else i

/-- The span of indented lines from a place, without the empty lines at its end.  A closing brace
    behind it belongs to it. -/
def indentedSpan (lines : List Line) (forced start : Nat) : Span :=
  let first := lines.getD start []
  let listOk := isItem first && start < forced
  let stop := indentedEnd forced (start + 1) listOk (lines.drop (start + 1))
  let body := (lines.drop start).take (stop - start)
  let stop := stop - (body.reverse.takeWhile (·.isEmpty)).length
  let closes := stop < lines.length && (lines.getD stop []).head? == some '\x7d'
  { start
    stop := if closes then stop + 1 else stop
    kind := if isItem first then .list else .code }

/-- Where unindented lines from a place end when indented text follows them directly: items at their
    end, or a line that ends in an opening brace or a backslash, are left for that text. -/
def leftForIndented (lines : List Line) (start stop : Nat) : Option Nat :=
  let last := lines.getD (stop - 1) []
  let next := lines.getD stop []
  if stop < lines.length && !next.isEmpty && !isItem next then
    if isItem last then
      let body := (lines.drop start).take (stop - 1 - start)
      some (stop - 1 - (body.reverse.takeWhile isItem).length)
    else if last.getLast? = some '\x7b' ∨ last.getLast? = some '\\' then some (stop - 1)
    else none
  else none

def plainSpan (lines : List Line) (start stop : Nat) : Span :=
  let line := lines.getD start []
  let standsAlone := 0 < start && (lines.getD (start - 1) []).isEmpty && start + 2 < lines.length
    && (lines.getD (start + 1) []).isEmpty && !isIndented (lines.getD (start + 2) [])
  { start, stop
    kind :=
      if stop = start + 1 && isHeading line then .heading
      else if stop = start + 1 && standsAlone && readsAsHeading line then .plainHeading
      else .paragraph }

/-- The spans of the lines from a place; lines before `forced` count as indented.  Every step but
    one goes on behind a span, and that one is followed by such a step. -/
def spansFrom (lines : List Line) : Nat → Nat → Nat → List Span
  | 0, _, _ => []
  | fuel + 1, forced, i =>
    let start := i + ((lines.drop i).takeWhile (·.isEmpty)).length
    if start ≥ lines.length then []
    else if start < forced || isIndented (lines.getD start []) then
      let span := indentedSpan lines forced start
      span :: spansFrom lines fuel forced span.stop
    else
      let rest := (lines.drop (start + 1)).takeWhile fun l => !l.isEmpty && !isIndented l
      let stop := start + 1 + rest.length
      match leftForIndented lines start stop with
      | none =>
        let span := plainSpan lines start stop
        span :: spansFrom lines fuel forced stop
      | some left =>
        if left = start then spansFrom lines fuel stop start
        else plainSpan lines start left :: spansFrom lines fuel stop left

def spans (lines : List Line) : List Span := spansFrom lines (2 * lines.length + 2) 0 0

/-! ### Links -/

structure Link where
  text : List Char
  address : List Char
  deriving DecidableEq, Repr

/-- The schemes of addresses. -/
def schemes : List String := ["file", "ftp", "gopher", "http", "https", "mailto", "nntp"]

/-- The definition of a link on a line. -/
def link? (line : Line) : Option Link :=
  match line with
  | '[' :: rest => do
    let (text, after) ← cut? [']', ':'] rest
    let gap ← after.head?
    if !isGap gap || after.length < 2 then none
    let address := trim (after.drop 1)
    let (scheme, _) ← cutAt? ':' address
    if schemes.contains (String.ofList scheme) then some ⟨text, address⟩ else none
  | _ => none

/-! ### Blocks -/

structure Item where
  number : List Char
  paragraphs : List (List Line)
  deriving DecidableEq, Repr

/-- A block of the text. -/
inductive Block where
  | paragraph (lines : List Line)
  | heading (text : Line)
  | code (lines : List Line)
  | list (items : List Item) (setOff loose : Bool)
  deriving DecidableEq, Repr

/-- A paragraph, or the links when its lines do nothing but define some. -/
def paragraphOrLinks (lines : List Line) : List (List Line) × List Link :=
  match lines.mapM link? with
  | some links => ([], links)
  | none => ([lines], [])

/-- A list under way: finished items, the item that is being read, the lines of its paragraph, the
    links it defines, and whether an empty line was met. -/
structure ListReading where
  items : List Item := []
  item : Option Item := none
  lines : List Line := []
  links : List Link := []
  loose : Bool := false

/-- Ends the paragraph that is being read. -/
def ListReading.flush (r : ListReading) : ListReading :=
  match r.item with
  | none => { r with lines := [] }
  | some item =>
    let (paragraphs, links) := paragraphOrLinks r.lines
    { r with
      item := some { item with paragraphs := item.paragraphs ++ paragraphs }
      lines := []
      links := r.links ++ links }

/-- Reads a further line of a list whose items are all numbered or all bulleted. -/
def ListReading.add (numbered : Bool) (r : ListReading) (line : Line) : ListReading :=
  let (r, line) :=
    match (item? line).filter fun (number, _) => !number.isEmpty == numbered with
    | some (number, rest) =>
      let r := r.flush
      ({ r with items := r.items ++ r.item.toList, item := some ⟨number, []⟩ }, rest)
    | none => (r, line)
  let line := trim line
  if line.isEmpty then { r.flush with loose := true } else { r with lines := r.lines ++ [line] }

/-- The list on the lines with the links it defines. -/
def listBlock (setOff : Bool) (lines : List Line) : Block × List Link :=
  let numbered := ((lines.head?.bind item?).map fun (number, _) => !number.isEmpty).getD false
  let r := (lines.foldl (ListReading.add numbered) {}).flush
  let items := r.items ++ r.item.toList
  let loose := r.loose || items.any (·.paragraphs.length != 1)
  (.list items (setOff || loose) loose, r.links)

/-- The blocks on the spans of the lines with the links that the text defines; `previous` is the end
    of the span before. -/
def blocksFrom (lines : List Line) : Nat → List Span → List Block × List Link
  | _, [] => ([], [])
  | previous, s :: rest =>
    let body := (lines.drop s.start).take (s.stop - s.start)
    let (blocks, links) : List Block × List Link :=
      match s.kind with
      | .list =>
        let (block, links) := listBlock (previous < s.start) body
        ([block], links)
      | .code => ([.code (unindent body)], [])
      | .heading => ([.heading (trim ((body.headD []).drop 1))], [])
      | .plainHeading => ([.heading (trim (body.headD []))], [])
      | .paragraph =>
        let (paragraphs, links) := paragraphOrLinks body
        (paragraphs.map .paragraph, links)
    let (others, otherLinks) := blocksFrom lines s.stop rest
    (blocks ++ others, links ++ otherLinks)

/-- The blocks of the text with the links that it defines. -/
def blocks (lines : List Line) : List Block × List Link :=
  let lines := unindent lines
  blocksFrom lines 0 (spans lines)

/-! ### Quotation marks -/

/-- Whether the character may stand in the host of an address. -/
def isHostChar (c : Char) : Bool := isWordChar c || "@-.[]:".toList.contains c

/-- Whether the character is a mark that may stand inside an address but not at its end. -/
def isAddressMark (c : Char) : Bool := ".,:;?!".toList.contains c

/-- Whether the character may stand anywhere in the path of an address. -/
def isPathChar (c : Char) : Bool :=
  isWordChar c || "$'()*+&#=@~/-[]\x7b\x7d%".toList.contains c

/-- The size of the path at the beginning of a text: brackets have to match, and it does not end in
    a mark.  `stack` holds the brackets that have to be closed, `read` characters were read, and
    `size` of them are a path. -/
def pathSize : List Char → Nat → Nat → List Char → Nat
  | _, _, size, [] => size
  | stack, read, size, c :: cs =>
    if isAddressMark c then pathSize stack (read + 1) size cs
    else if !isPathChar c then size
    else if c = '(' then pathSize (')' :: stack) (read + 1) size cs
    else if c = '\x7b' then pathSize ('\x7d' :: stack) (read + 1) size cs
    else if c = '[' then pathSize (']' :: stack) (read + 1) size cs
    else if c = ')' ∨ c = '\x7d' ∨ c = ']' then
      match stack with
      | [] => size
      | top :: stack =>
        if top = c then pathSize stack (read + 1) (if stack.isEmpty then read + 1 else size) cs
        else size
    else pathSize stack (read + 1) (if stack.isEmpty then read + 1 else size) cs

/-- The size of the address at the beginning of a text, if one stands there. -/
def addressSize? (cs : List Char) : Option Nat := do
  let scheme ← schemes.find? fun s => hasLead (s ++ "://").toList cs
  let lead := scheme.length + 3
  let host := (cs.drop lead).takeWhile isHostChar
  let first ← host.head?
  if isAddressMark first then none
  let host := (host.reverse.dropWhile isAddressMark).reverse
  let size := lead + host.length
  return size + pathSize [] 0 0 (cs.drop size)

/-- The size in octets of the name at the beginning of a text, zero if none stands there. -/
def nameSize (cs : List Char) : Nat :=
  let isPart := fun c => isWordChar c || (c.toNat ≥ 0x80 && isLetter c)
  match cs with
  | [] => 0
  | c :: _ =>
    if isDigit c then 0 else octetSize (cs.takeWhile isPart)

/-- What happens to the characters that follow: a number of octets is copied, or one is left out. -/
inductive Following where
  | copied (octets : Nat)
  | leftOut

/-- What is written for the first character of a text, and what happens to the following ones.  A
    name is copied, an address too where `addresses` holds, and so are three backquotes, behind
    which as many octets are copied as there are backquotes at the place three octets behind twice
    their own in the `whole` text.  `place` counts the octets before the text. -/
def curlStep (addresses : Bool) (whole : Octets) (place : Nat) (c : Char) (cs : List Char) :
    Char × Following :=
  let kept := if addresses then (addressSize? (c :: cs)).getD (nameSize (c :: cs)) else 0
  if kept > 0 then (c, .copied (kept - c.utf8Size))
  else
    match c, cs with
    | '\x60', '\x60' :: '\x60' :: _ =>
      let run := (whole.drop (2 * place + 3)).takeWhile (Octets.isChar '\x60')
      (c, .copied (2 + run.length))
    | '\x60', '\x60' :: _ => ('“', .leftOut)
    | '\'', '\'' :: _ => ('”', .leftOut)
    | _, _ => (c, .copied 0)

/-- The text with doubled quotation marks set as curly ones. -/
def curlFrom (addresses : Bool) (whole : Octets) : Nat → Following → List Char → List Char
  | _, _, [] => []
  | place, .leftOut, c :: cs => curlFrom addresses whole (place + c.utf8Size) (.copied 0) cs
  | place, .copied octets, c :: cs =>
    let next := place + c.utf8Size
    if octets > 0 then c :: curlFrom addresses whole next (.copied (octets - c.utf8Size)) cs
    else
      let (shown, following) := curlStep addresses whole place c cs
      shown :: curlFrom addresses whole next following cs

/-- The text with curly quotation marks. -/
def curl (addresses : Bool) (cs : List Char) : List Char :=
  curlFrom addresses (Octets.ofString (String.ofList cs)) 0 (.copied 0) cs

/-- A text under way that refers to links: what was written, the part that is not yet, the part
    behind an open bracket, each last character first, the name that a closing bracket would look
    up, and the links that were used. -/
structure Linking where
  written : List Char := []
  plain : List Char := []
  inside : Option (List Char) := none
  name : List Char := []
  used : List (List Char) := []

/-- Reads a further character of a text. -/
def Linking.add (links : List Link) (l : Linking) (c : Char) : Linking :=
  let opened := (l.inside.map fun cs => cs ++ ['[']).getD []
  if c = '[' then { l with plain := opened ++ l.plain, inside := some [] }
  else if c = ']' then
    match l.inside.filter fun _ => links.any (·.text == l.name.reverse) with
    | some inside =>
      { written :=
          l.written ++ curl true l.plain.reverse ++ '[' :: curl false inside.reverse ++ [']']
        used := l.name.reverse :: l.used }
    | none => { l with plain := c :: opened ++ l.plain, inside := none, name := [] }
  else
    match l.inside with
    | some inside =>
      { l with
        inside := some (c :: inside)
        name := (if c = '\n' ∨ c = '\t' then ' ' else c) :: l.name }
    | none => { l with plain := c :: l.plain }

/-- The lines of a paragraph as they are written, with the links that it uses. -/
def link (links : List Link) (lines : List Line) : List Line × List (List Char) :=
  let l := (['\n'].intercalate lines).foldl (Linking.add links) {}
  let opened := (l.inside.map fun cs => cs ++ ['[']).getD []
  (splitOn '\n' (l.written ++ curl true (opened ++ l.plain).reverse), l.used)

/-! ### Writing -/

def Block.paragraphs : Block → List (List Line)
  | .paragraph lines => [lines]
  | .list items _ _ => items.flatMap (·.paragraphs)
  | _ => []

/-- Whether an empty line stands in front of the block. -/
def Block.isSetOff : Block → Bool
  | .list _ setOff _ => setOff
  | _ => true

/-- The lines of an item: its mark in front of the first, and four spaces in front of the others. -/
def Item.lines (links : List Link) (item : Item) : List Line :=
  let mark := if item.number.isEmpty then "  - ".toList else ' ' :: item.number ++ ['.', ' ']
  let deep := fun (l : Line) => "    ".toList ++ l
  match item.paragraphs.map fun p => (link links p).1 with
  | [] => [mark]
  | first :: rest =>
    (mark ++ first.headD []) :: first.tail.map deep ++ rest.flatMap fun p => [] :: p.map deep

def Block.lines (links : List Link) : Block → List Line
  | .paragraph lines => (link links lines).1
  | .heading text => ['#' :: ' ' :: text]
  | .code lines => lines.map fun l => if l.isEmpty then l else '\t' :: l
  | .list items _ loose =>
    ((items.map (·.lines links)).intersperse (if loose then [[]] else [])).flatten

/-- The links from the first to the last with whether each is used; of several with one text the
    first is. -/
def usage (used : List (List Char)) : List (List Char) → List Link → List (Link × Bool)
  | _, [] => []
  | seen, l :: rest =>
    (l, used.contains l.text && !seen.contains l.text) :: usage used (l.text :: seen) rest

/-- The text of a comment as it is written, line by line. -/
def format (lines : List Line) : List Line :=
  let (bs, links) := blocks lines
  let body := match bs with
    | [] => []
    | first :: rest =>
      first.lines links
        ++ rest.flatMap fun b => (if b.isSetOff then [[]] else []) ++ b.lines links
  let used := (bs.flatMap (·.paragraphs)).flatMap fun p => (link links p).2
  let definitions := fun (isUsed : Bool) =>
    match (usage used [] links).filter (·.2 == isUsed) with
    | [] => []
    | ls => [] :: ls.map fun (l, _) => '[' :: l.text ++ [']', ':', ' '] ++ l.address
  body ++ definitions true ++ definitions false

end DocText

end ServiceCompiler.Code
