import ServiceCompiler.Document.Cursor

namespace ServiceCompiler.Document

/-!
# Taking in a text

A text is taken in by pieces of at most 512 octets, and a piece only when a reader looks so far ahead.
A character that a document may not contain is noticed when its piece is taken in, so nothing is said
of one that stands far behind the first document.

What was taken in stays at hand until a reader looks beyond it; then all that was read is let go, and
the place where the reader stands becomes the first one at hand.
-/

/-- A piece of a text: the number of its characters, and whether a document may contain them all. -/
structure Piece where
  length : Nat
  isAllowed : Bool
  deriving DecidableEq, Repr

/-- The most octets of a piece. -/
def Piece.limit : Nat := 512

/-- Cuts a text into pieces: `room` octets are left in the first one, which begins with `current`. -/
def Piece.cut (room : Nat) (current : Piece) : List Char → List Piece
  | [] => if current.length = 0 then [] else [current]
  | c :: cs =>
    let width := c.utf8Size
    if width ≤ room then
      cut (room - width) ⟨current.length + 1, current.isAllowed && Document.isAllowed c⟩ cs
    else current :: cut (Piece.limit - width) ⟨1, Document.isAllowed c⟩ cs

/-- What is at hand of a text: the number of characters taken in, the pieces that are still to come,
    and whether a byte order mark is the first character at hand. -/
structure Window where
  loaded : Nat := 0
  isMarked : Bool := false
  ahead : List Piece
  deriving DecidableEq, Repr

namespace Window

/-- Takes in pieces until a number of characters is reached.  At the end of the text one more is
    counted, which stands for the end. -/
def load? (goal : Nat) : Nat → List Piece → Option (Nat × List Piece)
  | loaded, [] => some (if loaded < goal then loaded + 1 else loaded, [])
  | loaded, p :: ps =>
    if goal ≤ loaded then some (loaded, p :: ps)
    else if p.isAllowed then load? goal (loaded + p.length) ps
    else none

/-- Looks some characters ahead of a cursor. -/
def want? (w : Window) (c : Cursor) (count : Nat) : Option Window :=
  let goal := c.mark.offset + count
  if goal ≤ w.loaded then some w
  else
    (load? goal w.loaded w.ahead).map fun (loaded, ahead) =>
      { loaded, ahead, isMarked := c.at_ byteOrderMark }

/-- Looks some characters ahead of each of the places from a cursor on. -/
def along? (count : Nat) : Nat → Window → Cursor → Option Window
  | 0, w, _ => some w
  | n + 1, w, c => do along? count n (← w.want? c count) (c.skip 1)

/-- How far a reader of words looks ahead, at the beginning of a word or a gap or behind a character
    of a word. -/
def reach (atStart : Bool) (c : Option Char) : Nat :=
  if !atStart then 2
  else if (c.map isGap).getD false then 1
  else if (c.map isBreak).getD false then 2
  else 4

/-- Looks ahead of each of the places that a reader of words goes through. -/
def alongWords? : Nat → Bool → Window → Cursor → Option Window
  | 0, _, w, _ => some w
  | n + 1, atStart, w, c => do
    let w ← w.want? c (reach atStart c.head?)
    alongWords? n (!c.rest.isEmpty && startsGap c.rest) w (c.skip 1)

/-- Looks at one character after the other, up to a number of them, without going on. -/
def peek? (w : Window) (c : Cursor) (count : Nat) : Option Window :=
  (List.range count).foldlM (fun w n => w.want? c (n + 1)) w

end Window

end ServiceCompiler.Document
