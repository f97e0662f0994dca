import ServiceCompiler.Code.Fragment.Lexeme

namespace ServiceCompiler.Code.Fragment

/-!
# Trees of fragments

Expressions and statements with the places of their parts, from which the layout takes where lines
were broken.
-/

/-- What a channel type lets through. -/
inductive Direction where
  | both
  | receive
  | send
  deriving DecidableEq, Repr

mutual

/-- An expression or a type. -/
inductive Expr where
  | name (place : Place) (text : List Char)
  | literal (place : Place) (kind : Kind) (text : List Char)
  | binary (left : Expr) (opPlace : Place) (op : String) (right : Expr)
  | unary (place : Place) (op : String) (operand : Expr)
  | star (place : Place) (operand : Expr)
  | paren (place : Place) (inner : Expr) (closing : Place)
  | selector (operand : Expr) (namePlace : Place) (name : List Char)
  | assertion (operand : Expr) (opening : Place) (type : Option Expr) (closing : Place)
  | index (operand : Expr) (opening : Place) (indices : List Expr) (closing : Place)
  | slice (operand : Expr) (opening : Place) (bounds : List (Option Expr)) (closing : Place)
  | call (function : Expr) (opening : Place) (arguments : List Expr) (spread : Option Place)
      (closing : Place)
  | composite (type : Option Expr) (opening : Place) (elements : List Expr) (closing : Place)
  | pair (key : Expr) (colon : Place) (value : Expr)
  | ellipsis (place : Place) (element : Option Expr)
  | array (place : Place) (size : Option Expr) (element : Expr)
  | mapping (place : Place) (key value : Expr)
  | channel (place : Place) (direction : Direction) (arrow : Place) (value : Expr)
  | emptyType (place : Place) (word : String) (opening closing : Place)
  | function (place : Place) (parameters : Parameters) (results : Option Parameters)
      (body : Option Block)

/-- Parameters between brackets; a result without brackets has none. -/
inductive Parameters where
  | mk (opening : Place) (entries : List Parameter) (closing : Place)

/-- Names with their type; a parameter may have no name. -/
inductive Parameter where
  | mk (names : List (Place × List Char)) (type : Expr)

/-- Statements between braces. -/
inductive Block where
  | mk (opening : Place) (statements : List Stmt) (closing : Place)

/-- A statement. -/
inductive Stmt where
  | empty (place : Place)
  | expr (x : Expr)
  | send (channel : Expr) (arrow : Place) (value : Expr)
  | step (x : Expr) (opPlace : Place) (op : String)
  | assign (targets : List Expr) (opPlace : Place) (op : String) (values : List Expr)
  | start (place : Place) (word : String) (call : Expr)
  | leave (place : Place) (results : List Expr)
  | branch (place : Place) (word : String) (label : Option (Place × List Char))
  | labeled (place : Place) (label : List Char) (colon : Place) (statement : Stmt)
  | block (body : Block)
  | condition (place : Place) (init : Option Stmt) (test : Expr) (body : Block)
      (otherwise : Option Stmt)
  | loop (place : Place) (init : Option Stmt) (test : Option Expr) (post : Option Stmt)
      (body : Block)
  | iteration (place : Place) (targets : List Expr) (opPlace : Place) (op : String) (source : Expr)
      (body : Block)
  | choice (place : Place) (init : Option Stmt) (subject : Option Stmt) (body : Clauses)
  | waiting (place : Place) (body : Clauses)
  | declaration (place : Place) (word : String) (names : List (Place × List Char))
      (type : Option Expr) (values : List Expr)
  | typeDeclaration (place : Place) (name : Place × List Char) (isAlias : Bool) (type : Expr)

/-- The clauses of a choice between braces. -/
inductive Clauses where
  | mk (opening : Place) (clauses : List Clause) (closing : Place)

/-- A clause: values or a communication to wait for, and what follows; one with neither is taken
    when no other is. -/
inductive Clause where
  | mk (place : Place) (values : List Expr) (communication : Option Stmt) (colon : Place)
      (body : List Stmt)

end

instance : Inhabited Expr := ⟨.name .start []⟩

def Expr.place : Expr → Place
  | .name p _ | .literal p _ _ | .unary p _ _ | .star p _ | .paren p _ _ => p
  | .ellipsis p _ | .array p _ _ | .mapping p _ _ | .channel p _ _ _ | .emptyType p _ _ _ => p
  | .function p _ _ _ => p
  | .binary x _ _ _ | .selector x _ _ | .assertion x _ _ _ => x.place
  | .index x _ _ _ | .slice x _ _ _ => x.place
  | .call f _ _ _ _ => f.place
  | .composite none opening _ _ => opening
  | .composite (some t) _ _ _ => t.place
  | .pair key _ _ => key.place

def Expr.line (x : Expr) : Nat := x.place.line

def Expr.lastLine : Expr → Nat
  | .name p _ => p.line
  | .literal p _ text => p.line + text.count '\n'
  | .binary _ _ _ y | .unary _ _ y | .star _ y | .pair _ _ y => y.lastLine
  | .array _ _ y | .mapping _ _ y | .channel _ _ _ y => y.lastLine
  | .paren _ _ closing | .assertion _ _ _ closing | .index _ _ _ closing => closing.line
  | .slice _ _ _ closing | .call _ _ _ _ closing | .composite _ _ _ closing => closing.line
  | .emptyType _ _ _ closing => closing.line
  | .selector _ p _ => p.line
  | .ellipsis p none => p.line
  | .ellipsis _ (some x) => x.lastLine
  | .function _ _ _ (some (.mk _ _ closing)) => closing.line
  | .function _ _ (some (.mk _ _ closing)) none => closing.line
  | .function _ (.mk _ _ closing) none none => closing.line

/-- An expression without the parentheses around it. -/
def Expr.bare : Expr → Expr
  | .paren _ x _ => x.bare
  | x => x

/-- Whether the expression is the name of a type, perhaps one of another package. -/
def Expr.isTypeName : Expr → Bool
  | .name _ _ => true
  | .selector x _ _ => x.isTypeName
  | _ => false

/-- Whether a literal of a named type stands in the expression outside of parentheses, down to a
    depth. -/
def Expr.hasNamedLiteral : Nat → Expr → Bool
  | 0, _ => false
  | depth + 1, x =>
    let inAny := fun (xs : List Expr) => xs.any (hasNamedLiteral depth)
    match x with
    | .composite type _ _ _ => type.any Expr.isTypeName
    | .binary a _ _ b | .pair a _ b | .mapping _ a b => inAny [a, b]
    | .unary _ _ a | .star _ a | .selector a _ _ | .channel _ _ _ a => inAny [a]
    | .assertion a _ type _ => inAny (a :: type.toList)
    | .index a _ indices _ => inAny (a :: indices)
    | .slice a _ bounds _ => inAny (a :: bounds.filterMap id)
    | .call f _ arguments _ _ => inAny (f :: arguments)
    | .array _ size element => inAny (element :: size.toList)
    | _ => false

/-- An expression in the head of a statement without the parentheses around it.  They stay where
    they set a literal apart from the block. -/
def Expr.stripped (depth : Nat) : Expr → Expr
  | .paren p x closing => if x.hasNamedLiteral depth then .paren p x closing else x.stripped depth
  | x => x

/-- Where a statement starts. -/
def Stmt.place : Stmt → Place
  | .empty p | .start p _ _ | .leave p _ | .branch p _ _ | .labeled p _ _ _ => p
  | .expr x | .send x _ _ | .step x _ _ => x.place
  | .assign targets p _ _ => (targets.head?.map Expr.place).getD p
  | .block (.mk opening _ _) => opening
  | .condition p _ _ _ _ | .loop p _ _ _ _ | .iteration p _ _ _ _ _ | .choice p _ _ _ => p
  | .waiting p _ | .declaration p _ _ _ _ | .typeDeclaration p _ _ _ => p

/-- The expression that a statement consists of. -/
def Stmt.expr? : Stmt → Option Expr
  | .expr x => some x
  | _ => none

/-- Whether the statement asks for the type of a value. -/
def Stmt.asksType : Stmt → Bool
  | .expr (.assertion _ _ none _) => true
  | .assign [_] _ ":=" [.assertion _ _ none _] => true
  | _ => false

/-- The number of labels in front of a statement. -/
def Stmt.labels : Stmt → Nat
  | .labeled _ _ _ s => s.labels + 1
  | _ => 0

/-- Whether nothing is written for the statement. -/
def Stmt.isEmpty : Stmt → Bool
  | .empty _ => true
  | _ => false

/-- How strongly an operator between two operands binds, from one to five; zero for no operator. -/
def strength (op : String) : Nat :=
  if op = "||" then 1
  else if op = "&&" then 2
  else if ["==", "!=", "<", "<=", ">", ">="].contains op then 3
  else if ["+", "-", "|", "^"].contains op then 4
  else if ["*", "/", "%", "<<", ">>", "&", "&^"].contains op then 5
  else 0

end ServiceCompiler.Code.Fragment
