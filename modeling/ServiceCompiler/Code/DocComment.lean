import ServiceCompiler.Code.CommentRun
import ServiceCompiler.Code.DocText

namespace ServiceCompiler.Code

/-!
# Comments of declarations

A declaration may have a comment, which can hold paths with any characters.  The formatter writes it
as a document when it stands directly in front of the declaration.
-/

namespace DocComment

open CommentRun

/-- Whether the text behind the slashes of a line comment is meant for a tool: a known word, or a
    word, a colon and a word, both of small letters and digits. -/
def isDirective (cs : List Char) : Bool :=
  let isPlain := fun c => ('a' ≤ c && c ≤ 'z') || Text.isDigit c
  ["line ", "extern ", "export "].any (fun w => Text.hasLead w.toList cs) ||
    match Text.cutAt? ':' cs with
    | some (before, c :: _) => !before.isEmpty && before.all isPlain && isPlain c
    | _ => false

/-- Whether every line of a block comment but the first starts with a star. -/
def isStarred (text : List Char) : Bool :=
  (Text.splitOn '\n' text).tail.all fun l =>
    let body := l.dropWhile DocText.isGap
    body.isEmpty || body.head? = some '*'

/-- The line comments of a document; directives follow behind an empty one. -/
def lineComments (texts : List (List Char)) : Option (List (List Char)) :=
  let (directives, others) := texts.partition fun t => isDirective (t.drop 2)
  if others.isEmpty then none
  else
    let lines := others.map fun t => (Text.stripLead? [' '] (t.drop 2)).getD (t.drop 2)
    let shown := (DocText.format (lines ++ [[]])).map fun l =>
      '/' :: '/' :: (if l.isEmpty || l.head? = some '\t' then l else ' ' :: l)
    some (shown ++ if directives.isEmpty then [] else ['/', '/'] :: directives)

/-- The comments of a group that holds a document, in the way the formatter writes them: line
    comments, or one block of several lines.  Any other group is left alone. -/
def formatted? (texts : List (List Char)) : Option (List (List Char)) :=
  match texts with
  | [] => none
  | text :: rest =>
    if texts.all isLineComment then lineComments texts
    else if !rest.isEmpty || isLineComment text || !text.contains '\n' || isStarred text then none
    else
      let lines := DocText.format (Text.splitOn '\n' (text.drop 2).dropLast.dropLast)
      some [['\n'].intercalate (['/', '*'] :: lines ++ [['*', '/']])]

/-- Whether the last of the comments stands directly in front of the declaration and apart from
    those before: it begins a line, directly behind no other comment, and ends where its text does.
    -/
def isDocument (before : List Placed) (last : Placed) : Bool :=
  let apart := match before.getLast? with
    | none => true
    | some b => last.line > b.line + b.text.count '\n' + 1
  last.isFirst && apart && dropReturns last.text == last.text

end DocComment

/-- The text of the comment in front of a declaration, `none` when the formatter refuses it. -/
def docComment? (text : String) : Option String := do
  let source := commentText text.toList
  if !areCommentChars source then none
  let comments ← CommentRun.comments? (.gap true) 1 source
  if !comments.all (·.isAccepted) then none
  let last ← comments.getLast?
  let before := comments.dropLast
  let codeLine := source.count '\n' + 2
  let items :=
    if DocComment.isDocument before last then
      let lead := before.foldl CommentRun.Output.add {}
      let texts := (DocComment.formatted? [last.text]).getD [last.text]
      lead.items ++ CommentRun.separator lead last.line
        ++ CommentRun.markLines (texts.flatMap formatComment) ++ [some '\n']
    else (CommentRun.print codeLine comments).items
  return String.ofList (Columns.chars items)

end ServiceCompiler.Code
