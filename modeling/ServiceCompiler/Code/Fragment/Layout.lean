import ServiceCompiler.Code.Fragment.Page
import ServiceCompiler.Code.Fragment.Parser
import ServiceCompiler.Code.Lines

namespace ServiceCompiler.Code.Fragment

/-!
# Layout of fragments

Where blanks, line breaks and indentations stand in an expression or a statement.  Lines are broken
where the source breaks them.  Operators have blanks around them, except stronger ones among weaker
ones and those deep inside of an expression.

* `cutoff` is the strength from which on operators of an expression have no blanks.
* `layoutExpr` and `layoutStmt` write a tree to a page.
* `formatBlock?` is the text of a block as it is laid out.
-/

/-- Writes to a page. -/
abbrev Layout := StateM Page

namespace Layout

/-- Lets a gap wait. -/
def gap (g : Gap) : Layout Unit := modify (·.addGap g)

/-- Goes to a place of the source. -/
def goTo (place : Place) : Layout Unit := modify fun p => { p with place }

/-- Writes a mark or a keyword. -/
def mark (s : String) : Layout Unit :=
  modify fun p =>
    let kind := if keywords.contains s then Kind.keyword else .mark
    p.write (.mark s) s.toList false (kind.endsStatement s.toList)

def name (text : List Char) : Layout Unit := modify fun p => p.write .other text false true

def literal (kind : Kind) (text : List Char) : Layout Unit :=
  modify fun p => p.write (if kind = .integer then .integer else .other) text true true

/-- Writes a mark that stands at a place of the source. -/
def markAt (place : Place) (s : String) : Layout Unit := do
  goTo place
  mark s

/-- Lets line breaks wait and gives their number. -/
def lineBreak (line least : Nat) (g : Gap) (isSection : Bool) : Layout Nat :=
  modifyGet fun p =>
    let (q, n) := p.lineBreak line least g isSection
    (n, q)

/-- The line of the source that has been reached. -/
def line : Layout Nat := return (← get).place.line

end Layout

/-! ### Numbers -/

/-- The last of a letter in small. -/
def lowerLast (capital small : Char) (cs : List Char) : List Char :=
  match Text.cutLast? capital cs with
  | some (before, after) => before ++ small :: after
  | none => cs

/-- A number with its letters in small and without zeros in front of an imaginary whole number. -/
def normalNumber (cs : List Char) : List Char :=
  match cs with
  | '0' :: c :: rest =>
    if c = 'x' ∨ c = 'X' then '0' :: 'x' :: lowerLast 'P' 'p' rest
    else if c = 'o' ∨ c = 'O' then '0' :: 'o' :: rest
    else if c = 'b' ∨ c = 'B' then '0' :: 'b' :: rest
    else decimalNumber cs
  | _ :: _ :: _ => decimalNumber cs
  | _ => cs
where
  /-- A decimal number in its normal form. -/
  decimalNumber (cs : List Char) : List Char :=
    if cs.contains 'E' then lowerLast 'E' 'e' cs
    else if cs.getLast? = some 'i' && !cs.contains '.' && !cs.contains 'e' then
      let shown := cs.dropWhile fun c => c == '0' || c == '_'
      if shown = ['i'] then ['0', 'i'] else shown
    else cs

/-! ### Blanks around operators -/

/-- What the operators of an expression are: whether one of strength four and one of strength five
    is among them, and the greatest strength that needs blanks lest two marks become one. -/
structure Operators where
  hasFour : Bool := false
  hasFive : Bool := false
  needed : Nat := 0

/-- What two expressions have together. -/
def Operators.join (a b : Operators) : Operators :=
  ⟨a.hasFour || b.hasFour, a.hasFive || b.hasFive, max a.needed b.needed⟩

/-- The operators of an expression that no parentheses set apart. -/
def operators : Expr → Operators
  | .binary x _ op y =>
    let own : Operators := { hasFour := strength op == 4, hasFive := strength op == 5 }
    let left := match x with
      | .binary _ _ inner _ => if strength inner < strength op then {} else operators x
      | _ => {}
    let right : Operators := match y with
      | .binary _ _ inner _ => if strength inner ≤ strength op then {} else operators y
      | .star _ _ => { needed := if op = "/" then 5 else 0 }
      | .unary _ inner _ =>
        let both := op ++ inner
        { needed :=
            if both = "/*" ∨ both = "&&" ∨ both = "&^" then 5
            else if both = "++" ∨ both = "--" then 4
            else 0 }
      | _ => {}
    let problem := match y with
      | .star _ _ | .unary _ _ _ => right.needed == 5
      | _ => false
    let all := (own.join left).join right
    if problem then { all with needed := 5 } else all
  | _ => {}

/-- The strength from which on operators have no blanks. -/
def cutoff (x : Expr) (depth : Nat) : Nat :=
  let ops := operators x
  if ops.needed > 0 then ops.needed + 1
  else if ops.hasFour && ops.hasFive then (if depth = 1 then 5 else 4)
  else if depth = 1 then 6
  else 4

/-- How much deeper the left operand of an operator lies: an operator of the same strength is not.
    -/
def leftStep (x : Expr) (op : String) : Nat :=
  match x with
  | .binary _ _ inner _ => if strength inner = strength op then 0 else 1
  | _ => 1

/-- Whether the expression joins two operands. -/
def Expr.isBinary : Expr → Bool
  | .binary _ _ _ _ => true
  | _ => false

/-! ### Sizes -/

/-- The size in octets of what is laid out on an empty page, if it has no line break. -/
def sizeOf? (layout : Layout Unit) : Option Nat :=
  let page := (layout.run {}).2
  let shown := Columns.trimmed false [] page.items.toList
  if shown.all fun c => c != '\n' && c != '\x0c' then some (Text.octetSize shown) else none

/-- Whether the elements of a list that is returned are indented: when one starts on another line
    than the one before ends on, or when several have more than one line. -/
def isIndentedList (xs : List Expr) : Bool :=
  match xs with
  | first :: _ :: _ =>
    let spans := xs.map fun x => (x.line, x.lastLine)
    let ends := first.line :: spans.map (·.2)
    (ends.zip spans).any (fun (e, s) => e < s.1)
      || (spans.filter fun s => s.1 < s.2).length > 1
  | _ => false

/-- How a list of expressions is laid out: where the lexemes before and behind it stand, whether a
    break indents it, and whether a comma may end it. -/
structure ListStyle where
  before : Option Place
  behind : Option Place
  indents : Bool := true
  endsWithComma : Bool := false

def ListStyle.between (opening closing : Place) : ListStyle where
  before := some opening
  behind := some closing
  endsWithComma := true

/-- A list under way: the gap of the next break, the element behind which a line was broken last,
    the size of the element before, the sizes that share a column, last one first, and the line of
    the element before. -/
structure ListState where
  gap : Gap
  broken : Option Nat
  size : Nat := 0
  sizes : List Nat := []
  line : Nat

open Layout

mutual

/-- Lays out an expression inside an operator of the given strength and at a depth. -/
def layoutExpr : Nat → Expr → Nat → Nat → Layout Unit
  | 0, _, _, _ => pure ()
  | fuel + 1, x, least, depth => do
    goTo x.place
    match x with
    | .name _ text => name text
    | .literal _ kind text =>
      let isNumber := kind = .integer ∨ kind = .float ∨ kind = .imaginary
      literal kind (if isNumber then normalNumber text else text)
    | .binary left opPlace op right =>
      let isSpaced := strength op < cutoff x depth
      layoutExpr fuel left (strength op) (depth + leftStep left op)
      if isSpaced then gap .blank
      let leftLine ← line
      markAt opPlace op
      let breaks ←
        if leftLine != right.line then lineBreak right.line 1 .indent true else pure 0
      if breaks = 0 && isSpaced then gap .blank
      layoutExpr fuel right (strength op + 1) (depth + 1)
      if breaks > 0 then gap .unindent
    | .unary _ op operand =>
      mark op
      layoutExpr fuel operand 6 depth
    | .star _ operand =>
      mark "*"
      layoutExpr fuel operand 0 1
    | .paren _ inner closing =>
      match inner with
      | .paren _ _ _ => layoutExpr fuel inner 0 depth
      | _ =>
        mark "("
        layoutExpr fuel inner 0 (max (depth - 1) 1)
        markAt closing ")"
    | .selector operand place text =>
      let broken ← layoutSelector fuel operand place text depth
      if broken then gap .unindent
    | .assertion operand opening type closing =>
      layoutExpr fuel operand 7 depth
      mark "."
      markAt opening "("
      match type with
      | some t => layoutExpr fuel t 0 1
      | none => mark "type"
      markAt closing ")"
    | .index operand opening indices closing =>
      layoutExpr fuel operand 7 1
      markAt opening "["
      match indices with
      | [i] => layoutExpr fuel i 0 (depth + 1)
      | _ =>
        layoutList fuel (.between opening closing) indices (depth + 1)
      markAt closing "]"
    | .slice operand opening bounds closing =>
      layoutExpr fuel operand 7 1
      markAt opening "["
      let given := bounds.filterMap id
      let isSpaced := depth ≤ 1 && given.length > 1 && given.any Expr.isBinary
      layoutBounds fuel isSpaced (depth + 1) true bounds
      markAt closing "]"
    | .call function opening arguments spread closing =>
      let depth := if arguments.length > 1 then depth + 1 else depth
      let isGrouped := match function with
        | .function _ _ _ none | .channel _ .receive _ _ => true
        | _ => false
      if isGrouped then mark "("
      let broken ← match function with
        | .selector operand place text => layoutSelectorFirst fuel operand place text depth
        | _ => do
          layoutExpr fuel function 7 depth
          pure false
      if isGrouped then mark ")"
      markAt opening "("
      match spread with
      | some dots =>
        layoutList fuel { before := some opening, behind := some dots } arguments depth
        markAt dots "..."
        if dots.line < closing.line then
          mark ","
          gap .formFeed
      | none =>
        layoutList fuel (.between opening closing) arguments depth
      markAt closing ")"
      if broken then gap .unindent
    | .composite type opening elements closing =>
      match type with
      | some t => layoutExpr fuel t 7 depth
      | none => pure ()
      modify fun p => { p with level := p.level + 1 }
      markAt opening "\x7b"
      layoutList fuel (.between opening closing) elements 1
      gap .indent
      gap .unindent
      let toggle : Layout Unit := modify fun p =>
        let p := p.noteOpening
        { p with
          noExtraBreak := !p.noExtraBreak
          noExtraBlank := if elements.isEmpty then p.noExtraBlank else !p.noExtraBlank }
      toggle
      markAt closing "\x7d"
      toggle
      modify fun p => { p with level := p.level - 1 }
    | .pair key colon value =>
      layoutExpr fuel key 0 1
      markAt colon ":"
      gap .column
      layoutExpr fuel value 0 1
    | .ellipsis _ element =>
      mark "..."
      match element with
      | some t => layoutExpr fuel t 0 1
      | none => pure ()
    | .array _ size element =>
      mark "["
      match size with
      | some s => layoutExpr fuel s 0 1
      | none => pure ()
      mark "]"
      layoutExpr fuel element 0 1
    | .mapping _ key value =>
      mark "map"
      mark "["
      layoutExpr fuel key 0 1
      mark "]"
      layoutExpr fuel value 0 1
    | .channel _ direction arrow value =>
      match direction with
      | .both => mark "chan"
      | .receive =>
        mark "<-"
        mark "chan"
      | .send =>
        mark "chan"
        markAt arrow "<-"
      gap .blank
      layoutExpr fuel value 0 1
    | .emptyType _ word opening closing =>
      mark word
      markAt opening "\x7b"
      markAt closing "\x7d"
    | .function place parameters results body =>
      mark "func"
      let start := (← get).column - 4
      layoutParameters fuel parameters
      layoutResults fuel results
      match body with
      | none => pure ()
      | some b =>
        let page ← get
        let size := if place.line = page.place.line then some (page.column - start) else none
        layoutBody fuel size b

/-- Lays out an operand and the name selected from it, which may stand on a line of its own further
    in.  Tells whether it does. -/
def layoutSelector : Nat → Expr → Place → List Char → Nat → Layout Bool
  | 0, _, _, _, _ => pure false
  | fuel + 1, operand, place, text, depth => do
    layoutExpr fuel operand 7 depth
    mark "."
    let broken := (← line) < place.line
    if broken then
      gap .indent
      gap .newline
    goTo place
    name text
    return broken

/-- Lays out a selector that a call starts with. -/
def layoutSelectorFirst : Nat → Expr → Place → List Char → Nat → Layout Bool
  | 0, _, _, _, _ => pure false
  | fuel + 1, operand, place, text, depth => do
    goTo operand.place
    layoutSelector fuel operand place text depth

/-- Lays out the bounds of a slice with colons between them. -/
def layoutBounds : Nat → Bool → Nat → Bool → List (Option Expr) → Layout Unit
  | 0, _, _, _, _ => pure ()
  | _, _, _, _, [] => pure ()
  | fuel + 1, isSpaced, depth, isFirst, bound :: rest => do
    if !isFirst then
      mark ":"
      if bound.isSome && isSpaced then gap .blank
    match bound with
    | some x => layoutExpr fuel x 0 depth
    | none => pure ()
    if bound.isSome && isSpaced && !rest.isEmpty then gap .blank
    layoutBounds fuel isSpaced depth false rest

/-- Lays out expressions with commas between them: on one line if all stand on one, otherwise broken
    where the source is. -/
def layoutList : Nat → ListStyle → List Expr → Nat → Layout Unit
  | 0, _, _, _ => pure ()
  | fuel + 1, style, xs, depth => do
    match xs with
    | [] => pure ()
    | first :: _ =>
      let lastLine := (xs.getLast?.map Expr.lastLine).getD first.line
      let before := (style.before.map (·.line)).getD 0
      if before = first.line ∧ first.line = lastLine then layoutOnLine fuel depth true xs
      else
        let gapOfBreak := if style.indents then Gap.indent else .ignored
        let breaks ←
          if 0 < before ∧ before < first.line then lineBreak first.line 0 gapOfBreak true
          else pure 0
        let state ← layoutElements fuel style depth (xs.length > 1) 0
          { gap := if breaks > 0 then .ignored else gapOfBreak
            broken := if breaks > 0 then some 0 else none
            line := before } xs
        let reached ← line
        let endsApart := style.endsWithComma && style.behind.any fun p => reached < p.line
        if endsApart then mark ","
        if state.gap = .ignored ∧ style.indents then gap .unindent
        if endsApart then gap .formFeed

/-- Lays out expressions on one line. -/
def layoutOnLine : Nat → Nat → Bool → List Expr → Layout Unit
  | 0, _, _, _ => pure ()
  | _, _, _, [] => pure ()
  | fuel + 1, depth, isFirst, x :: rest => do
    if !isFirst then
      markAt x.place ","
      gap .blank
    layoutExpr fuel x 0 depth
    layoutOnLine fuel depth false rest

/-- Lays out the elements of a list from the given position on. -/
def layoutElements : Nat → ListStyle → Nat → Bool → Nat → ListState → List Expr → Layout ListState
  | 0, _, _, _, _, state, _ => pure state
  | _, _, _, _, _, state, [] => pure state
  | fuel + 1, style, depth, isSeveral, i, state, x :: rest => do
    let measured := match x with
      | .pair key _ _ => key
      | _ => x
    let isPair := match x with
      | .pair _ _ _ => true
      | _ => false
    let fits := style.before.isSome && style.behind.isSome
      && (sizeOf? (layoutExpr fuel x 0 1)).isSome
    let size := if fits then (sizeOf? (layoutExpr fuel measured 0 1)).getD 0 else 0
    let endsColumn :=
      if state.size > 0 && size > 0 then breaksColumn state.sizes state.size size else true
    let needsBreak := 0 < state.line && state.line < x.line
    let mut state := state
    if i > 0 then
      if !needsBreak then goTo x.place
      mark ","
      let isApart := state.broken.all fun b => decide (b + 1 < i)
      let breaks ←
        if needsBreak then lineBreak x.line 0 state.gap (endsColumn || isApart) else pure 0
      if breaks > 0 then state := { state with gap := .ignored, broken := some i }
      if breaks > 1 then state := { state with sizes := [] }
      if breaks = 0 then gap .blank
    match x with
    | .pair key colon value =>
      if isSeveral && isPair && size > 0 && needsBreak then
        layoutExpr fuel key 0 1
        markAt colon ":"
        gap .column
        layoutExpr fuel value 0 1
      else layoutExpr fuel x 0 depth
    | _ => layoutExpr fuel x 0 depth
    let sizes := if size > 0 then size :: state.sizes else state.sizes
    let reached := { state with size, sizes, line := x.line }
    layoutElements fuel style depth isSeveral (i + 1) reached rest

/-- Lays out parameters between brackets. -/
def layoutParameters : Nat → Parameters → Layout Unit
  | 0, _ => pure ()
  | fuel + 1, .mk opening entries closing => do
    markAt opening "("
    if !entries.isEmpty then
      let (g, lastLine) ← layoutEntries fuel true .indent opening.line entries
      if lastLine < closing.line then
        mark ","
        let _ ← lineBreak closing.line 0 .ignored true
      if g = .ignored then gap .unindent
    markAt closing ")"

/-- Lays out the entries of a list of parameters.  Gives the gap of a further break and the last
    line. -/
def layoutEntries : Nat → Bool → Gap → Nat → List Parameter → Layout (Gap × Nat)
  | 0, _, g, lastLine, _ => pure (g, lastLine)
  | _, _, g, lastLine, [] => pure (g, lastLine)
  | fuel + 1, isFirst, g, lastLine, .mk names type :: rest => do
    let place := (names.head?.map (·.1)).getD type.place
    let needsBreak := 0 < lastLine && lastLine < place.line
    if !isFirst then
      if !needsBreak then goTo place
      mark ","
    let breaks ← if needsBreak then lineBreak place.line 0 g true else pure 0
    if breaks = 0 && !isFirst then gap .blank
    let g := if breaks > 0 then Gap.ignored else g
    if !names.isEmpty then
      let style : ListStyle := { before := none, behind := none, indents := g == .indent }
      layoutList fuel style (names.map fun (p, text) => .name p text) 1
      gap .blank
    layoutExpr fuel type.bare 0 1
    layoutEntries fuel false g type.lastLine rest

/-- Lays out the results of a function: a single one without a name has no brackets. -/
def layoutResults : Nat → Option Parameters → Layout Unit
  | 0, _ => pure ()
  | _, none => pure ()
  | fuel + 1, some (.mk opening entries closing) => do
    match entries with
    | [] => pure ()
    | [.mk [] type] =>
      gap .blank
      layoutExpr fuel type.bare 0 1
    | _ =>
      gap .blank
      layoutParameters fuel (.mk opening entries closing)

/-- Lays out the body of a function whose head has the given size on its line: on the same line if
    it stands on one and both are small, otherwise as a block. -/
def layoutBody : Nat → Option Nat → Block → Layout Unit
  | 0, _, _ => pure ()
  | fuel + 1, head, .mk opening statements closing => do
    let page ← get
    let level := page.level
    modify fun p => { p with level := 0 }
    let remarks := page.groups.takeWhile fun g =>
      (g.head?.any fun r => r.place.offset < closing.offset)
        && !(page.endsStatement && Page.hasBreak g)
    let remarkSize := Text.octetSize (remarks.flatten.flatMap (·.text))
    let sizes := statements.map fun s => sizeOf? (layoutStmt fuel s false)
    let isSmall := opening.line == closing.line && statements.length ≤ 5 && sizes.all Option.isSome
      && head.any fun h =>
        h + remarkSize + (sizes.filterMap id).foldl Nat.add 0 + 2 * (statements.length - 1) ≤ 100
    gap .blank
    if isSmall then
      markAt opening "\x7b"
      if !statements.isEmpty then
        gap .blank
        layoutOnLineStmts fuel true statements
        gap .blank
      let toggle : Layout Unit := modify fun p =>
        { p.noteOpening with noExtraBreak := !p.noExtraBreak }
      toggle
      markAt closing "\x7d"
      toggle
    else layoutBlock fuel (.mk opening statements closing)
    modify fun p => { p with level }

/-- Lays out statements on one line. -/
def layoutOnLineStmts : Nat → Bool → List Stmt → Layout Unit
  | 0, _, _ => pure ()
  | _, _, [] => pure ()
  | fuel + 1, isFirst, s :: rest => do
    if !isFirst then
      mark ";"
      gap .blank
    layoutStmt fuel s rest.isEmpty
    layoutOnLineStmts fuel false rest

/-- Lays out a block. -/
def layoutBlock : Nat → Block → Layout Unit
  | 0, _ => pure ()
  | fuel + 1, .mk opening statements closing => do
    markAt opening "\x7b"
    gap .indent
    let outer := (← get).startLine
    layoutStmts fuel none (some statements.length) 0 statements
    modify fun p => { p with startLine := outer }
    gap .unindent
    let _ ← lineBreak closing.line 1 .ignored true
    markAt closing "\x7d"

/-- Lays out statements, each on a line of its own; `previous` is the line of the page on which the
    one before started.  Columns end with a statement of several lines.  `last` is the number of the
    statement that a closing brace follows, empty ones being left out of `count`. -/
def layoutStmts : Nat → Option Nat → Option Nat → Nat → List Stmt → Layout Unit
  | 0, _, _, _, _ => pure ()
  | _, _, _, _, [] => pure ()
  | fuel + 1, previous, last, count, s :: rest => do
    if s.isEmpty then layoutStmts fuel previous last count rest
    else
      let reached := (← get).line
      let isSection := previous.all fun started => decide (started < reached)
      let _ ← lineBreak s.place.line 1 .ignored isSection
      modify fun p => { p with startLine := none }
      layoutStmt fuel s (last = some (count + 1))
      let started := (← get).startLine.getD 0 + s.labels
      layoutStmts fuel (some started) last (count + 1) rest

/-- Lays out a statement; `isLast` tells whether a closing brace follows. -/
def layoutStmt : Nat → Stmt → Bool → Layout Unit
  | 0, _, _ => pure ()
  | fuel + 1, s, isLast => do
    goTo s.place
    match s with
    | .empty _ => pure ()
    | .expr x => layoutExpr fuel x 0 1
    | .send channel arrow value =>
      layoutExpr fuel channel 0 1
      gap .blank
      markAt arrow "<-"
      gap .blank
      layoutExpr fuel value 0 1
    | .step x opPlace op =>
      layoutExpr fuel x 0 2
      markAt opPlace op
    | .assign targets opPlace op values =>
      let depth := if targets.length > 1 && values.length > 1 then 2 else 1
      layoutList fuel { before := some s.place, behind := some opPlace } targets depth
      gap .blank
      markAt opPlace op
      gap .blank
      layoutList fuel { before := some opPlace, behind := none } values depth
    | .start _ word call =>
      mark word
      gap .blank
      layoutExpr fuel call 0 1
    | .leave _ results =>
      mark "return"
      if !results.isEmpty then
        gap .blank
        let isIndented := isIndentedList results
        if isIndented then gap .indent
        layoutList fuel { before := none, behind := none, indents := !isIndented } results 1
        if isIndented then gap .unindent
    | .branch _ word label =>
      mark word
      match label with
      | some (place, text) =>
        gap .blank
        goTo place
        name text
      | none => pure ()
    | .labeled _ label colon inner =>
      gap .unindent
      name label
      markAt colon ":"
      gap .indent
      match inner with
      | .empty place =>
        if !isLast then
          gap .newline
          markAt place ";"
      | _ =>
        let _ ← lineBreak inner.place.line 1 .ignored true
        layoutStmt fuel inner isLast
    | .block body => layoutBlock fuel body
    | .condition _ init test body otherwise =>
      mark "if"
      layoutHead fuel false init (some test) none
      layoutBlock fuel body
      match otherwise with
      | none => pure ()
      | some s =>
        gap .blank
        mark "else"
        gap .blank
        layoutStmt fuel s isLast
    | .loop _ init test post body =>
      mark "for"
      layoutHead fuel true init test post
      layoutBlock fuel body
    | .iteration _ targets opPlace op source body =>
      mark "for"
      gap .blank
      if !targets.isEmpty then
        layoutTargets fuel true targets
        gap .blank
        markAt opPlace op
        gap .blank
      mark "range"
      gap .blank
      layoutExpr fuel (source.stripped fuel) 0 1
      gap .blank
      layoutBlock fuel body
    | .choice _ init subject body =>
      mark "switch"
      match subject with
      | some s =>
        if s.asksType then
          match init with
          | some i =>
            gap .blank
            layoutStmt fuel i false
            mark ";"
          | none => pure ()
          gap .blank
          layoutStmt fuel s false
          gap .blank
        else layoutHead fuel false init s.expr? none
      | none => layoutHead fuel false init none none
      layoutClauses fuel body
    | .waiting _ (.mk opening clauses closing) =>
      mark "select"
      gap .blank
      if clauses.isEmpty && !(← get).awaitsComment closing then
        markAt opening "\x7b"
        markAt closing "\x7d"
      else layoutClauses fuel (.mk opening clauses closing)
    | .declaration _ word names type values =>
      mark word
      gap .blank
      layoutList fuel { before := none, behind := none } (names.map fun (p, text) => .name p text) 1
      match type with
      | some t =>
        gap .blank
        layoutExpr fuel t 0 1
      | none => pure ()
      if !values.isEmpty then
        gap .blank
        mark "="
        gap .blank
        layoutList fuel { before := none, behind := none } values 1
    | .typeDeclaration _ (place, text) isAlias type =>
      mark "type"
      gap .blank
      goTo place
      name text
      gap .blank
      if isAlias then
        mark "="
        gap .blank
      layoutExpr fuel type 0 1

/-- Lays out one or two targets of an iteration. -/
def layoutTargets : Nat → Bool → List Expr → Layout Unit
  | 0, _, _ => pure ()
  | _, _, [] => pure ()
  | fuel + 1, isFirst, x :: rest => do
    if !isFirst then
      markAt x.place ","
      gap .blank
    layoutExpr fuel x 0 1
    layoutTargets fuel false rest

/-- Lays out the head of a statement with a block.  Semicolons stand where there is more than a
    test, and a loop has two of them. -/
def layoutHead : Nat → Bool → Option Stmt → Option Expr → Option Stmt → Layout Unit
  | 0, _, _, _, _ => pure ()
  | fuel + 1, isLoop, init, test, post => do
    gap .blank
    let isBare := init.isNone && post.isNone
    if !isBare then
      match init with
      | some s => layoutStmt fuel s false
      | none => pure ()
      mark ";"
      gap .blank
    match test with
    | some x => layoutExpr fuel (x.stripped fuel) 0 1
    | none => pure ()
    if isBare || !isLoop then
      if test.isSome then gap .blank
    else
      mark ";"
      gap .blank
      match post with
      | some s =>
        layoutStmt fuel s false
        gap .blank
      | none => pure ()

/-- Lays out the clauses of a choice, each on a line of its own and not further in. -/
def layoutClauses : Nat → Clauses → Layout Unit
  | 0, _ => pure ()
  | fuel + 1, .mk opening clauses closing => do
    markAt opening "\x7b"
    let outer := (← get).startLine
    layoutClauseList fuel clauses
    modify fun p => { p with startLine := outer }
    let _ ← lineBreak closing.line 1 .ignored true
    markAt closing "\x7d"

/-- Lays out clauses. -/
def layoutClauseList : Nat → List Clause → Layout Unit
  | 0, _ => pure ()
  | _, [] => pure ()
  | fuel + 1, .mk place values communication colon body :: rest => do
    let _ ← lineBreak place.line 1 .ignored true
    goTo place
    match values, communication with
    | [], none => mark "default"
    | [], some s =>
      mark "case"
      gap .blank
      layoutStmt fuel s false
    | _, _ =>
      mark "case"
      gap .blank
      layoutList fuel { before := some place, behind := some colon } values 1
    markAt colon ":"
    gap .indent
    layoutStmts fuel none (if rest.isEmpty then some body.length else none) 0 body
    gap .unindent
    layoutClauseList fuel rest

end

/-- The text of a block as it is laid out, `none` when it cannot be read. -/
def formatBlock? (source : List Char) : Option (List Char) := do
  let ls ← lexemes? source
  let block ← block? ls
  let fuel := 16 * ls.length + 64
  let page := ((layoutBlock fuel block).run { groups := Remark.groups ls }).2
  return Columns.chars page.items.toList

end ServiceCompiler.Code.Fragment
