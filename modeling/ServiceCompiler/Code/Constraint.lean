import ServiceCompiler.Text.Letter

namespace ServiceCompiler.Code

open Text

/-!
# Build constraints

A comment of the form `//go:build …` or `// +build …` restricts when a file is compiled.  The
formatter writes such comments in a canonical form: one expression, and the lines of the older
form derived from it.
-/

/-- A condition on build tags. -/
inductive Constraint where
  | tag (name : String)
  | not (c : Constraint)
  | and (a b : Constraint)
  | or (a b : Constraint)
  deriving DecidableEq, Repr

namespace Constraint

/-- Whether the character may stand in a tag. -/
def isTagChar (c : Char) : Bool :=
  isLetter c || isDecimalDigit c || c == '_' || c == '.'

/-! ### Lines -/

/-- The condition of a line of the newer form. -/
def newerText? (line : List Char) : Option (List Char) :=
  match stripLead? "//go:build".toList line with
  | none => none
  | some rest =>
    let rest := trimTail rest
    if rest.isEmpty || (rest.head?.map isBlank).getD false then some (trim rest) else none

/-- The conditions of a line of the older form. -/
def olderText? (line : List Char) : Option (List Char) :=
  match (stripLead? ['/', '/'] line).map trim with
  | none => none
  | some body =>
    match stripLead? "+build".toList body with
    | none => none
    | some rest =>
      if rest.isEmpty || (rest.head?.map isBlank).getD false then some (trim rest) else none

/-! ### Writing -/

/-- The text in parentheses when asked for. -/
def grouped (group : Bool) (text : String) : String := if group then "(" ++ text ++ ")" else text

/-- Whether the condition is a conjunction. -/
def isAnd : Constraint → Bool
  | .and _ _ => true
  | _ => false

/-- Whether the condition is a disjunction. -/
def isOr : Constraint → Bool
  | .or _ _ => true
  | _ => false

/-- The text of a condition. -/
def text : Constraint → String
  | .tag name => name
  | .not c => "!" ++ grouped (c.isAnd || c.isOr) c.text
  | .and a b => grouped a.isOr a.text ++ " && " ++ grouped b.isOr b.text
  | .or a b => grouped a.isAnd a.text ++ " || " ++ grouped b.isAnd b.text

/-! ### Reading the newer form -/

/-- A token of a condition; `unknown` stands for characters that begin none. -/
inductive Token where
  | word (name : String)
  | bang
  | andOp
  | orOp
  | openParen
  | closeParen
  | unknown
  deriving DecidableEq, Repr

/-- The tag under way, its last character first, in front of further tokens. -/
def Token.finish (word : List Char) (rest : List Token) : List Token :=
  if word.isEmpty then rest else .word (String.ofList word.reverse) :: rest

/-- The tokens of a condition up to the first unknown one; `word` is the tag under way, last
    character first. -/
def tokensFrom : List Char → List Char → List Token
  | word, [] => Token.finish word []
  | word, '&' :: '&' :: cs => Token.finish word (.andOp :: tokensFrom [] cs)
  | word, '|' :: '|' :: cs => Token.finish word (.orOp :: tokensFrom [] cs)
  | word, '!' :: cs => Token.finish word (.bang :: tokensFrom [] cs)
  | word, '(' :: cs => Token.finish word (.openParen :: tokensFrom [] cs)
  | word, ')' :: cs => Token.finish word (.closeParen :: tokensFrom [] cs)
  | word, ' ' :: cs => Token.finish word (tokensFrom [] cs)
  | word, '\t' :: cs => Token.finish word (tokensFrom [] cs)
  | word, c :: cs =>
    if isTagChar c then tokensFrom (c :: word) cs else Token.finish word [.unknown]

/-- Whether an operand has to follow the token. -/
def Token.opensOperand : Token → Bool
  | .andOp | .orOp | .openParen => true
  | _ => false

/-- The tokens up to the one that opens an operand beyond the limit. -/
def limited : Nat → List Token → List Token
  | _, [] => []
  | 0, _ => []
  | n + 1, t :: ts => t :: limited (if t.opensOperand then n else n + 1) ts

/-- The greatest number of operands of a condition. -/
def maxOperands : Nat := 1000

/-- What was read, unless an unknown token follows it. -/
def settled (c : Constraint) (rest : List Token) : Option (Constraint × List Token) :=
  if rest.head? = some .unknown then none else some (c, rest)

/-- Reads a disjunction, a conjunction or a factor (levels 2, 1 and 0) and gives the rest.  Each
    step either lowers the level or takes a token, so three steps per token are enough. -/
def readLevel : Nat → Nat → List Token → Option (Constraint × List Token)
  | 0, _, _ => none
  | fuel + 1, 0, tokens =>
    match tokens with
    | .word name :: rest => settled (.tag name) rest
    | .bang :: .bang :: _ => none
    | .bang :: rest => (readLevel fuel 0 rest).map fun (c, rest) => (.not c, rest)
    | .openParen :: rest => do
      let (c, rest) ← readLevel fuel 2 rest
      match rest with
      | .closeParen :: rest => settled c rest
      | _ => none
    | _ => none
  | fuel + 1, level + 1, tokens => do
    let (first, rest) ← readLevel fuel level tokens
    more fuel level first rest
where
  /-- Reads the further operands of a conjunction or disjunction. -/
  more : Nat → Nat → Constraint → List Token → Option (Constraint × List Token)
    | 0, _, _, _ => none
    | fuel + 1, level, first, tokens =>
      match level, tokens with
      | 0, .andOp :: rest => do
        let (next, rest) ← readLevel fuel 0 rest
        more fuel 0 (.and first next) rest
      | 1, .orOp :: rest => do
        let (next, rest) ← readLevel fuel 1 rest
        more fuel 1 (.or first next) rest
      | _, _ => some (first, tokens)

/-- Reads the condition at the beginning of a text; what follows it is left out. -/
def parse? (cs : List Char) : Option Constraint :=
  let tokens := limited maxOperands (tokensFrom [] cs)
  (readLevel (4 * tokens.length + 8) 2 tokens).map (·.1)

/-! ### The older form -/

/-- One alternative of the older form, without its comma-separated siblings. -/
def ofLiteral (lit : List Char) : Constraint :=
  let named := fun (cs : List Char) =>
    Constraint.tag (if !cs.isEmpty && cs.all isTagChar then String.ofList cs else "ignore")
  match lit with
  | ['!'] => .tag "ignore"
  | '!' :: '!' :: _ => .tag "ignore"
  | '!' :: rest => .not (named rest)
  | _ => named lit

/-- The condition of a non-empty list joined by an operation. -/
def joinWith (op : Constraint → Constraint → Constraint) : List Constraint → Constraint
  | [] => .tag "ignore"
  | c :: cs => cs.foldl op c

/-- The greatest number of operators in a line of the older form. -/
def maxPlusOperators : Nat := 100

/-- Reads a line of the older form: alternatives between blanks, joined conditions between commas.
    A line with too many of them is refused. -/
def ofPlusLine? (cs : List Char) : Option Constraint :=
  let clauses := (words cs).map fun clause => (splitOn ',' clause).map ofLiteral
  if clauses.flatten.length > maxPlusOperators + 1 then none
  else some (joinWith .or (clauses.map (joinWith .and)))

/-- The condition with negations at the tags only. -/
def pushNot : Bool → Constraint → Constraint
  | negate, .tag name => if negate then .not (.tag name) else .tag name
  | negate, .not c => pushNot (!negate) c
  | negate, .and a b =>
    if negate then .or (pushNot true a) (pushNot true b) else .and (pushNot false a) (pushNot false b)
  | negate, .or a b =>
    if negate then .and (pushNot true a) (pushNot true b) else .or (pushNot false a) (pushNot false b)

/-- The operands of a conjunction. -/
def conjuncts : Constraint → List Constraint
  | .and a b => conjuncts a ++ conjuncts b
  | c => [c]

/-- The operands of a disjunction. -/
def disjuncts : Constraint → List Constraint
  | .or a b => disjuncts a ++ disjuncts b
  | c => [c]

/-- The lines of the older form. -/
def plusLines (c : Constraint) : List String :=
  let split := (conjuncts (pushNot false c)).map fun o => (disjuncts o).map conjuncts
  if split.any (·.any (·.any fun c => c.isAnd || c.isOr)) then
    ["// +build error: expression too complex for // +build lines"]
  else
    let split :=
      if split.all (·.length == 1) then [[(split.map fun o => o.flatten).flatten]] else split
    split.map fun o => "// +build" ++ String.join (o.map fun a => " " ++ ",".intercalate (a.map text))

end Constraint

end ServiceCompiler.Code
