import ServiceCompiler.Code.Fragment.Tree

namespace ServiceCompiler.Code.Fragment

/-!
# Reading fragments

The tree of a fragment from its lexemes without comments: a block of statements with the expressions
and types in them.

* `block?` reads a block that takes all lexemes.

Every function takes a number that bounds how deep it may go; each step into a part lowers it, and
each part takes a lexeme, so a small multiple of the number of lexemes is enough.
-/

/-- The lexemes that are left, and whether they belong to the head of a statement with a block,
    where braces behind a name open that block. -/
structure Cursor where
  rest : List Lexeme
  inHead : Bool := false

/-- Reads from the front of a list of lexemes. -/
abbrev Reader := StateT Cursor Option

/-- Reads as inside or outside of the head of a statement. -/
def within {α : Type} (inHead : Bool) (reader : Reader α) : Reader α := do
  let outer := (← get).inHead
  modify fun c => { c with inHead }
  let x ← reader
  modify fun c => { c with inHead := outer }
  return x

/-- The next lexeme, which is left where it is. -/
def peek : Reader (Option Lexeme) := return (← get).rest.head?

/-- Whether the next lexeme is the given keyword, mark or ending. -/
def sees (text : String) : Reader Bool := return (← peek).any (·.is text)

def next : Reader Lexeme := do
  match (← get).rest with
  | [] => failure
  | l :: rest =>
    modify fun c => { c with rest }
    return l

/-- The place of the next lexeme, which has to be the given one. -/
def expect (text : String) : Reader Place := do
  let l ← next
  if l.is text then return l.place else failure

def expectName : Reader (Place × List Char) := do
  let l ← next
  if l.kind = .name then return (l.place, l.text) else failure

def nextKind : Reader (Option Kind) := return (← peek).map (·.kind)

/-- Whether a statement ends with the next lexeme. -/
def seesEnding : Reader Bool := return (← nextKind) = some .ending

def nextPlace : Reader Place := do
  match ← peek with
  | none => failure
  | some l => return l.place

/-- The statement, whose ending may be left out before a closing brace. -/
def ended (s : Stmt) : Reader Stmt := do
  if ← sees "\x7d" then return s
  else
    let l ← next
    if l.kind = .ending then return s else failure

/-- Whether a type starts with the next lexeme. -/
def seesType : Reader Bool := do
  let starts ← ["(", "[", "*", "map", "chan", "<-", "struct", "interface", "func"].anyM sees
  return starts || (← nextKind) = some .name

/-- Whether the next lexeme ends a list: the closing one, or a comma that is taken and after which
    the list may go on. -/
def endsList (closing : String) : Reader Bool := do
  if ← sees "," then
    let _ ← next
    sees closing
  else if ← sees closing then return true
  else failure

/-- The operators in front of an operand. -/
def unaryOps : List String := ["+", "-", "!", "^", "&", "~"]

/-- The operators of assignments. -/
def assignOps : List String :=
  [":=", "=", "+=", "-=", "*=", "/=", "%=", "&=", "|=", "^=", "<<=", ">>=", "&^="]

/-- The channel type that an arrow in front of a channel type makes: the arrow belongs to the
    outermost channel, whose own arrow goes to the next one.  The last of them must have none left
    over. -/
def receiveFrom? (arrow : Place) : Expr → Option Expr
  | .channel _ .both _ value => some (.channel arrow .receive arrow value)
  | .channel _ .send inner value => (receiveFrom? inner value).map (.channel arrow .receive arrow ·)
  | _ => none

/-- Whether braces behind the expression make a literal of that type, inside or outside of the head
    of a statement. -/
def Expr.isLiteralType (inHead : Bool) : Expr → Bool
  | .name _ _ | .selector _ _ _ | .index _ _ _ _ => !inHead
  | .array _ _ _ | .mapping _ _ _ => true
  | .emptyType _ word _ _ => word == "struct"
  | _ => false

/-- A parameter as it is read: an expression that is its type or its name, and the type behind a
    name. -/
abbrev RawParameter := Expr × Option Expr

/-- The parameters in which names without a type share that of the following ones; `names` are those
    met so far, last one first. -/
def namedParameters? : List (Place × List Char) → List RawParameter → Option (List Parameter)
  | names, [] => if names.isEmpty then some [] else none
  | names, (.name p text, none) :: rest => namedParameters? ((p, text) :: names) rest
  | names, (.name p text, some type) :: rest =>
    (namedParameters? [] rest).map (.mk ((p, text) :: names).reverse type :: ·)
  | _, _ :: _ => none

/-- The parameters: either all have names or none has. -/
def parameters? (raw : List RawParameter) : Option (List Parameter) :=
  if raw.any (·.2.isSome) then namedParameters? [] raw
  else some (raw.map fun (x, _) => .mk [] x)

mutual

def readType : Nat → Reader Expr
  | 0 => failure
  | fuel + 1 => do
    let l ← next
    if l.kind = .name then
      let x ← if ← sees "." then
          let _ ← next
          let (p, name) ← expectName
          pure (Expr.selector (.name l.place l.text) p name)
        else pure (Expr.name l.place l.text)
      if ← sees "[" then
        let opening ← expect "["
        let arguments ← within false (readTypes fuel)
        return .index x opening arguments (← expect "]")
      else return x
    else readTypeAfter fuel l

/-- Reads the types of a list up to its closing bracket. -/
def readTypes : Nat → Reader (List Expr)
  | 0 => failure
  | fuel + 1 => do
    let x ← readType fuel
    if ← endsList "]" then return [x] else return x :: (← readTypes fuel)

/-- Reads a type that starts with a lexeme other than a name. -/
def readTypeAfter : Nat → Lexeme → Reader Expr
  | 0, _ => failure
  | fuel + 1, l => do
    if l.is "[" then
      let size ← if ← sees "..." then
          pure (some (Expr.ellipsis (← expect "...") none))
        else if ← sees "]" then pure none
        else some <$> within false (readExpr fuel)
      let _ ← expect "]"
      return .array l.place size (← readType fuel)
    else if l.is "*" then return .star l.place (← readType fuel)
    else if l.is "(" then
      let x ← readType fuel
      return .paren l.place x (← expect ")")
    else if l.is "map" then
      let _ ← expect "["
      let key ← readType fuel
      let _ ← expect "]"
      return .mapping l.place key (← readType fuel)
    else if l.is "chan" then
      if ← sees "<-" then
        let arrow ← expect "<-"
        return .channel l.place .send arrow (← readType fuel)
      else return .channel l.place .both l.place (← readType fuel)
    else if l.is "<-" then
      let _ ← expect "chan"
      return .channel l.place .receive l.place (← readType fuel)
    else if l.is "struct" || l.is "interface" then
      let opening ← expect "\x7b"
      return .emptyType l.place (String.ofList l.text) opening (← expect "\x7d")
    else if l.is "func" then readSignature fuel l.place
    else failure

/-- Reads the parameters and results of a function behind its keyword. -/
def readSignature : Nat → Place → Reader Expr
  | 0, _ => failure
  | fuel + 1, place => do
    let parameters ← readParameters fuel
    if ← sees "(" then
      return .function place parameters (some (← readParameters fuel)) none
    else if ← seesType then
      let type ← readType fuel
      let result := Parameters.mk type.place [.mk [] type] ⟨0, type.lastLine, 0⟩
      return .function place parameters (some result) none
    else return .function place parameters none none

/-- Reads parameters between brackets. -/
def readParameters : Nat → Reader Parameters
  | 0 => failure
  | fuel + 1 => do
    let opening ← expect "("
    let raw ← if ← sees ")" then pure [] else readRawParameters fuel
    let closing ← expect ")"
    match parameters? raw with
    | none => failure
    | some entries => return .mk opening entries closing

def readRawParameters : Nat → Reader (List RawParameter)
  | 0 => failure
  | fuel + 1 => do
    let entry ← match (← get).rest with
      | l :: bracket :: _ =>
        if l.kind = .name && bracket.is "[" then readNameAndBracket fuel else readRawParameter fuel
      | _ => failure
    if ← endsList ")" then return [entry] else return entry :: (← readRawParameters fuel)

/-- Reads an entry that is a type or a name with its type. -/
def readRawParameter : Nat → Reader RawParameter
  | 0 => failure
  | fuel + 1 => do
    if ← sees "..." then
      let p ← expect "..."
      return (.ellipsis p (some (← readType fuel)), none)
    else
      let first ← readType fuel
      if ← sees "..." then
        let p ← expect "..."
        return (first, some (.ellipsis p (some (← readType fuel))))
      else if ← seesType then return (first, some (← readType fuel))
      else return (first, none)

/-- Reads an entry in which a square bracket follows a name: the bracket belongs to an array type
    when it is empty or when a type follows, and otherwise holds the arguments of a type. -/
def readNameAndBracket : Nat → Reader RawParameter
  | 0 => failure
  | fuel + 1 => do
    let (p, text) ← expectName
    let opening ← expect "["
    if ← sees "]" then
      let _ ← next
      return (.name p text, some (.array opening none (← readType fuel)))
    else if ← sees "..." then
      let size := Expr.ellipsis (← expect "...") none
      let _ ← expect "]"
      return (.name p text, some (.array opening (some size) (← readType fuel)))
    else
      let x ← readExpr fuel
      if ← sees "," then
        let others ← if ← endsList "]" then pure [] else readTypes fuel
        return (.index (.name p text) opening (x :: others) (← expect "]"), none)
      else
        let closing ← expect "]"
        if ← seesType then return (.name p text, some (.array opening (some x) (← readType fuel)))
        else return (.index (.name p text) opening [x] closing, none)

def readExpr : Nat → Reader Expr
  | 0 => failure
  | fuel + 1 => readBinary fuel 1

/-- Reads operands joined by operators of at least the given strength. -/
def readBinary : Nat → Nat → Reader Expr
  | 0, _ => failure
  | fuel + 1, least => do readOperators fuel least (← readUnary fuel)

def readOperators : Nat → Nat → Expr → Reader Expr
  | 0, _, _ => failure
  | fuel + 1, least, x => do
    match ← peek with
    | none => return x
    | some l =>
      let op := String.ofList l.text
      if l.kind = .mark && least ≤ strength op then
        let _ ← next
        let y ← readBinary fuel (strength op + 1)
        readOperators fuel least (.binary x l.place op y)
      else return x

/-- Reads an operand with the operators in front of it. -/
def readUnary : Nat → Reader Expr
  | 0 => failure
  | fuel + 1 => do
    match ← peek with
    | none => failure
    | some l =>
      if l.kind = .mark && unaryOps.contains (String.ofList l.text) then
        let _ ← next
        return .unary l.place (String.ofList l.text) (← readUnary fuel)
      else if l.is "<-" then
        let _ ← next
        match ← readUnary fuel with
        | .channel p d arrow value =>
          match receiveFrom? l.place (.channel p d arrow value) with
          | some x => return x
          | none => failure
        | x => return .unary l.place "<-" x
      else if l.is "*" then
        let _ ← next
        return .star l.place (← readUnary fuel)
      else readSuffixes fuel (← readOperand fuel)

/-- Reads an operand without what follows it. -/
def readOperand : Nat → Reader Expr
  | 0 => failure
  | fuel + 1 => do
    let l ← next
    match l.kind with
    | .name => return .name l.place l.text
    | .integer | .float | .imaginary | .rune | .text => return .literal l.place l.kind l.text
    | _ =>
      if l.is "(" then
        let x ← within false (readExpr fuel)
        return .paren l.place x (← expect ")")
      else if l.is "func" then
        match ← readSignature fuel l.place with
        | .function p parameters results _ =>
          if ← sees "\x7b" then
            return .function p parameters results (some (← within false (readBlock fuel)))
          else return .function p parameters results none
        | x => return x
      else readTypeAfter fuel l

/-- Reads the selectors, calls, indices and literals behind an operand. -/
def readSuffixes : Nat → Expr → Reader Expr
  | 0, _ => failure
  | fuel + 1, x => do
    if ← sees "." then
      let _ ← next
      if ← sees "(" then
        let opening ← expect "("
        let type ← if ← sees "type" then
            let _ ← next
            pure none
          else some <$> readType fuel
        readSuffixes fuel (.assertion x opening type (← expect ")"))
      else
        let (p, name) ← expectName
        readSuffixes fuel (.selector x p name)
    else if ← sees "[" then readSuffixes fuel (← within false (readIndex fuel x))
    else if ← sees "(" then
      let opening ← expect "("
      let (arguments, spread) ←
        if ← sees ")" then pure ([], none) else within false (readArguments fuel)
      readSuffixes fuel (.call x opening arguments spread (← expect ")"))
    else if (← sees "\x7b") && x.bare.isLiteralType (← get).inHead then
      match x with
      | .paren _ _ _ => failure
      | x => readSuffixes fuel (← within false (readLiteral fuel (some x)))
    else return x

/-- Reads what stands between square brackets behind an operand. -/
def readIndex : Nat → Expr → Reader Expr
  | 0, _ => failure
  | fuel + 1, x => do
    let opening ← expect "["
    let low ← if ← sees ":" then pure none else some <$> readExpr fuel
    if ← sees ":" then
      let _ ← next
      let high ← if (← sees ":") || (← sees "]") then pure none else some <$> readExpr fuel
      if ← sees ":" then
        let _ ← next
        let greatest ← if ← sees "]" then pure none else some <$> readExpr fuel
        if high.isNone || greatest.isNone then failure
        else return .slice x opening [low, high, greatest] (← expect "]")
      else return .slice x opening [low, high] (← expect "]")
    else
      let others ← if ← sees "," then
          if ← endsList "]" then pure [] else readTypes fuel
        else pure []
      return .index x opening (low.toList ++ others) (← expect "]")

/-- Reads the arguments of a call; the last one may be spread. -/
def readArguments : Nat → Reader (List Expr × Option Place)
  | 0 => failure
  | fuel + 1 => do
    let x ← readExpr fuel
    let spread ← if ← sees "..." then some <$> expect "..." else pure none
    if ← endsList ")" then return ([x], spread)
    else if spread.isSome then failure
    else
      let (others, spread) ← readArguments fuel
      return (x :: others, spread)

/-- Reads the braces of a literal. -/
def readLiteral : Nat → Option Expr → Reader Expr
  | 0, _ => failure
  | fuel + 1, type => do
    let opening ← expect "\x7b"
    let elements ← if ← sees "\x7d" then pure [] else readElements fuel
    return .composite type opening elements (← expect "\x7d")

def readElements : Nat → Reader (List Expr)
  | 0 => failure
  | fuel + 1 => do
    let key ← readElement fuel
    let x ← if ← sees ":" then
        let colon ← expect ":"
        pure (Expr.pair key colon (← readElement fuel))
      else pure key
    if ← endsList "\x7d" then return [x] else return x :: (← readElements fuel)

/-- Reads a key or a value of a literal, which may be a literal without its type. -/
def readElement : Nat → Reader Expr
  | 0 => failure
  | fuel + 1 => do if ← sees "\x7b" then readLiteral fuel none else readExpr fuel

/-- Reads expressions with commas between them. -/
def readExprs : Nat → Reader (List Expr)
  | 0 => failure
  | fuel + 1 => do
    let x ← readExpr fuel
    if ← sees "," then
      let _ ← next
      return x :: (← readExprs fuel)
    else return [x]

def readBlock : Nat → Reader Block
  | 0 => failure
  | fuel + 1 => do
    let opening ← expect "\x7b"
    let statements ← readStmts fuel
    return .mk opening statements (← expect "\x7d")

/-- Reads statements up to a closing brace or a further clause. -/
def readStmts : Nat → Reader (List Stmt)
  | 0 => failure
  | fuel + 1 => do
    if (← sees "\x7d") || (← sees "case") || (← sees "default") then return []
    else
      let s ← readStmt fuel
      return s :: (← readStmts fuel)

/-- Reads a statement with its ending. -/
def readStmt : Nat → Reader Stmt
  | 0 => failure
  | fuel + 1 => do
    match ← peek with
    | none => failure
    | some l =>
      let word := String.ofList l.text
      if l.kind = .ending then
        let _ ← next
        return .empty l.place
      else if l.is "go" || l.is "defer" then
        let _ ← next
        match ← readExpr fuel with
        | .call f opening arguments spread closing =>
          ended (.start l.place word (.call f opening arguments spread closing))
        | _ => failure
      else if l.is "return" then
        let _ ← next
        let isBare := (← seesEnding) || (← sees "\x7d")
        let results ← if isBare then pure [] else readExprs fuel
        ended (.leave l.place results)
      else if l.is "break" || l.is "continue" || l.is "goto" || l.is "fallthrough" then
        let _ ← next
        let hasLabel := l.is "goto" || (!l.is "fallthrough" && (← nextKind) = some .name)
        let label ← if hasLabel then some <$> expectName else pure none
        ended (.branch l.place word label)
      else if l.is "\x7b" then ended (.block (← readBlock fuel))
      else if l.is "if" then readCondition fuel
      else if l.is "for" then readLoop fuel
      else if l.is "switch" then readChoice fuel
      else if l.is "select" then
        let _ ← next
        ended (.waiting l.place (← readClauses fuel true))
      else if l.is "var" || l.is "const" || l.is "type" then readDeclaration fuel
      else if ← sees "~" then failure
      else
        match ← readSimple fuel true with
        | .labeled p label colon s => return .labeled p label colon s
        | s => ended s

/-- Reads a statement that starts with an expression, without its ending.  A label may be one, and
    has the statement behind it. -/
def readSimple : Nat → Bool → Reader Stmt
  | 0, _ => failure
  | fuel + 1, allowsLabel => do
    let targets ← readExprs fuel
    match ← peek with
    | none => failure
    | some l =>
      let op := String.ofList l.text
      if l.kind = .mark && assignOps.contains op then
        let _ ← next
        return .assign targets l.place op (← readExprs fuel)
      else
        match targets with
        | [x] =>
          if l.is ":" && allowsLabel then
            let _ ← next
            match x with
            | .name p label =>
              if ← sees "\x7d" then return .labeled p label l.place (.empty (← nextPlace))
              else return .labeled p label l.place (← readStmt fuel)
            | _ => failure
          else if l.is "<-" then
            let _ ← next
            return .send x l.place (← readExpr fuel)
          else if l.is "++" || l.is "--" then
            let _ ← next
            return .step x l.place op
          else return .expr x
        | _ => failure

def readCondition : Nat → Reader Stmt
  | 0 => failure
  | fuel + 1 => do
    let place ← expect "if"
    let first ← within true (if ← seesEnding then pure none else some <$> readSimple fuel false)
    let (init, test) ← if ← sees "\x7b" then pure (none, first.bind Stmt.expr?)
      else if ← seesEnding then
        let _ ← next
        pure (first, (← within true (readSimple fuel false)).expr?)
      else failure
    match test with
    | none => failure
    | some test =>
      let body ← readBlock fuel
      if ← sees "else" then
        let _ ← next
        if ← sees "if" then return .condition place init test body (some (← readCondition fuel))
        else ended (.condition place init test body (some (.block (← readBlock fuel))))
      else ended (.condition place init test body none)

/-- Reads the source of an iteration behind its keyword, and its body. -/
def readIteration : Nat → Place → List Expr → Place → String → Reader Stmt
  | 0, _, _, _, _ => failure
  | fuel + 1, place, targets, opPlace, op => do
    let _ ← expect "range"
    let source ← within true (readExpr fuel)
    if targets.length > 2 then failure
    ended (.iteration place targets opPlace op source (← readBlock fuel))

def readLoop : Nat → Reader Stmt
  | 0 => failure
  | fuel + 1 => do
    let place ← expect "for"
    if ← sees "\x7b" then ended (.loop place none none none (← readBlock fuel))
    else if ← sees "range" then readIteration fuel place [] place ""
    else if ← seesEnding then readLoopClauses fuel place none
    else
      let targets ← within true (readExprs fuel)
      match ← peek with
      | none => failure
      | some l =>
        let op := String.ofList l.text
        let isAssignment := l.kind = .mark && assignOps.contains op
        if isAssignment then
          let _ ← next
          if (l.is ":=" || l.is "=") && (← sees "range") then
            readIteration fuel place targets l.place op
          else
            let values ← within true (readExprs fuel)
            readLoopClauses fuel place (some (.assign targets l.place op values))
        else
          match targets with
          | [x] =>
            if l.is "\x7b" then ended (.loop place none (some x) none (← readBlock fuel))
            else if l.is "<-" then
              let _ ← next
              let value ← within true (readExpr fuel)
              readLoopClauses fuel place (some (.send x l.place value))
            else if l.is "++" || l.is "--" then
              let _ ← next
              readLoopClauses fuel place (some (.step x l.place op))
            else readLoopClauses fuel place (some (.expr x))
          | _ => failure

/-- Reads the further clauses of a loop behind the first, and its body. -/
def readLoopClauses : Nat → Place → Option Stmt → Reader Stmt
  | 0, _, _ => failure
  | fuel + 1, place, init => do
    if !(← seesEnding) then failure
    let _ ← next
    let test ← if ← seesEnding then pure none else some <$> within true (readSimple fuel false)
    if test.any (·.expr?.isNone) then failure
    if !(← seesEnding) then failure
    let _ ← next
    let post ← if ← sees "\x7b" then pure none else some <$> within true (readSimple fuel false)
    ended (.loop place init (test.bind Stmt.expr?) post (← readBlock fuel))

/-- Reads a choice between values or types. -/
def readChoice : Nat → Reader Stmt
  | 0 => failure
  | fuel + 1 => do
    let place ← expect "switch"
    let part : Reader (Option Stmt) := do
      if (← sees "\x7b") || (← seesEnding) then return none
      else some <$> within true (readSimple fuel false)
    let first ← part
    let (init, subject) ← if ← seesEnding then
        let _ ← next
        pure (first, ← part)
      else pure (none, first)
    if subject.any fun s => s.expr?.isNone && !s.asksType then failure
    ended (.choice place init subject (← readClauses fuel false))

/-- Reads clauses between braces; those that wait have a communication each. -/
def readClauses : Nat → Bool → Reader Clauses
  | 0, _ => failure
  | fuel + 1, waits => do
    let opening ← expect "\x7b"
    let clauses ← readClauseList fuel waits
    return .mk opening clauses (← expect "\x7d")

/-- Reads clauses up to a closing brace. -/
def readClauseList : Nat → Bool → Reader (List Clause)
  | 0, _ => failure
  | fuel + 1, waits => do
    if ← sees "\x7d" then return []
    else
      let l ← next
      let (values, communication) ←
        if l.is "default" then pure ([], none)
        else if !l.is "case" then failure
        else if waits then pure ([], some (← readCommunication fuel))
        else pure (← readExprs fuel, none)
      let colon ← expect ":"
      let body ← readStmts fuel
      return .mk l.place values communication colon body :: (← readClauseList fuel waits)

/-- Reads a communication: a value that is sent, or one or two places for a value that is received.
    -/
def readCommunication : Nat → Reader Stmt
  | 0 => failure
  | fuel + 1 => do
    let targets ← readExprs fuel
    match ← peek with
    | none => failure
    | some l =>
      if l.is "=" || l.is ":=" then
        let _ ← next
        if targets.length > 2 then failure
        return .assign targets l.place (String.ofList l.text) [← readExpr fuel]
      else
        match targets with
        | [x] =>
          if l.is "<-" then
            let _ ← next
            return .send x l.place (← readExpr fuel)
          else return .expr x
        | _ => failure

def readNames : Nat → Reader (List (Place × List Char))
  | 0 => failure
  | fuel + 1 => do
    let name ← expectName
    if ← sees "," then
      let _ ← next
      return name :: (← readNames fuel)
    else return [name]

/-- Reads a declaration without brackets. -/
def readDeclaration : Nat → Reader Stmt
  | 0 => failure
  | fuel + 1 => do
    let l ← next
    if l.is "type" then
      let name ← expectName
      let isAlias ← sees "="
      if isAlias then
        let _ ← next
      ended (.typeDeclaration l.place name isAlias (← readType fuel))
    else
      let names ← readNames fuel
      let hasType := !(← sees "=") && (l.is "var" || (← seesType))
      let type ← if hasType then some <$> readType fuel else pure none
      let values ← if ← sees "=" then
          let _ ← next
          readExprs fuel
        else pure []
      ended (.declaration l.place (String.ofList l.text) names type values)

end

/-- Reads a block that takes all the lexemes but the ending behind it. -/
def block? (lexemes : List Lexeme) : Option Block := do
  let lexemes := lexemes.filter (·.kind != .comment)
  let (block, cursor) ← (readBlock (16 * lexemes.length + 32)).run ⟨lexemes, false⟩
  if cursor.rest.all (·.kind == .ending) then some block else none

end ServiceCompiler.Code.Fragment
