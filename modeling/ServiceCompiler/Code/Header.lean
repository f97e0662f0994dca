import ServiceCompiler.Code.CommentRun

namespace ServiceCompiler.Code

/-!
# The header of a file

The header is a text from the settings that stands above the code.  It must consist of comments
only, otherwise no file can be generated.

* `Header.placeConstraints` moves the build constraints together, in canonical form, above
  everything that is no line comment.
* `header?` is the text in front of the code, `none` when the formatter refuses the header.
-/

namespace Header

open CommentRun

/-- The line that starts at a place, with its end. -/
def lineAt (items : Marked) : Marked :=
  let line := items.takeWhile (!isLineEnd ·)
  line ++ (items.drop line.length).take 1

/-- The text of the comment that starts at a place, up to the end of its first line. -/
def textAt (items : Marked) : List Char :=
  let body := match items with
    | none :: rest => rest
    | rest => rest
  (body.takeWhile fun item => item.isSome && !isLineEnd item).filterMap id

/-- The latest place for constraints: behind the last empty line among those at the beginning that
    hold nothing but a line comment.  `read` items were read, and `best` is the place found so far.
    -/
def placeFrom : Nat → Nat → Nat → Marked → Nat
  | 0, _, best, _ => best
  | fuel + 1, read, best, items =>
    let gap := items.takeWhile fun i => i == some ' ' || i == some '\t'
    let rest := items.drop gap.length
    let isComment := rest.take 3 == [none, some '/', some '/']
    let line := if isComment then rest.takeWhile (!isLineEnd ·) else []
    let after := rest.drop line.length
    match after with
    | [] => best
    | ending :: next =>
      if isLineEnd ending then
        let read := read + gap.length + line.length + 1
        placeFrom fuel read (if isComment then best else read) next
      else best

/-- The condition that the constraints state together, if it can be read: that of the only line of
    the newer form, or else those of the older form. -/
def condition? (o : Output) : Option Constraint :=
  let text := fun start => textAt (o.items.drop start)
  match o.newer with
  | [] =>
    (o.older.mapM fun start => (Constraint.olderText? (text start)).bind Constraint.ofPlusLine?).map
      (Constraint.joinWith .and)
  | [start] => (Constraint.newerText? (text start)).bind Constraint.parse?
  | _ => none

/-- The constraints as they are written: canonical, or as they were when they cannot be read. -/
def constraintBlock (o : Output) : Marked :=
  let lines :=
    match condition? o with
    | none => (o.newer ++ o.older).flatMap fun start => lineAt (o.items.drop start)
    | some c =>
      let texts := ("//go:build " ++ c.text) :: (if o.older.isEmpty then [] else c.plusLines)
      texts.flatMap fun s => markLine s.toList ++ [some '\n']
  lines ++ [some '\n']

/-- One text of whole lines behind another; an empty line at its beginning is left out where nothing
    or an empty line comes before. -/
def joinLines (before after : Marked) : Marked :=
  let startsEmpty := (after.head?.map isLineEnd).getD false
  let endsEmpty := before.isEmpty || (before.length ≥ 2 && (before.reverse.take 2).all isLineEnd)
  before ++ (if startsEmpty && endsEmpty then after.drop 1 else after)

/-- What follows a place without the lines that start at the given places. -/
def withoutLines (items : Marked) : Nat → Marked → List Nat → Marked
  | start, kept, [] => joinLines kept (items.drop start)
  | start, kept, place :: rest =>
    if place < start then withoutLines items start kept rest
    else
      let kept := joinLines kept ((items.drop start).take (place - start))
      withoutLines items (place + (lineAt (items.drop place)).length) kept rest

/-- The written header with its constraints together. -/
def placeConstraints (o : Output) : Marked :=
  if o.newer.isEmpty && o.older.isEmpty then o.items
  else
    let latest := placeFrom (o.items.length + 1) 0 0 o.items
    let place :=
      match o.newer, o.older with
      | n :: _, _ =>
        if n < latest then n else
          match o.older with
          | m :: _ => min m latest
          | [] => latest
      | [], m :: _ => min m latest
      | [], [] => latest
    let places := (o.newer ++ o.older).mergeSort (· ≤ ·)
    o.items.take place ++ constraintBlock o ++ withoutLines o.items place [] places

end Header

/-- The text in front of the code of a file; an empty header gives none, and one that is not made of
    comments is refused. -/
def header? (text : String) : Option String :=
  if text = "" then some ""
  else do
    let source := commentText text.toList
    if !areCommentChars source then none
    let comments ← CommentRun.comments? (.gap true) 1 source
    if !comments.all (·.isAccepted) then none
    let codeLine := 1 + source.count '\n' + 2
    return String.ofList
      (Columns.chars (Header.placeConstraints (CommentRun.print codeLine comments)))

end ServiceCompiler.Code
