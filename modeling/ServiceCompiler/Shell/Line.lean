import ServiceCompiler.Text.Basic

namespace ServiceCompiler.Shell

/-!
# Command lines

A command line is a list of commands, each after a connector that says whether it is run.  A command
has words, which may be quoted, and may send its output elsewhere.

* `tokens` cuts a line into words and marks.
* `commandsOfLine` reads the commands of a line.
-/

/-- A part of a command line. -/
inductive Token where
  | word (cs : List Char)
  | mark (c : Char)
  /-- Output is sent elsewhere; the channel is the one that is. -/
  | redirect (channel : Nat)
  deriving DecidableEq, Repr

/-- How the characters of a line are taken. -/
inductive Quoting where
  | plain
  | escaped
  | single
  | double
  | doubleEscaped
  deriving DecidableEq, Repr

/-- The token of a finished word, if there is one. -/
def finishWord : Option (List Char) → List Token
  | none => []
  | some cs => [.word cs.reverse]

/-- The marks that end a word. -/
def isMark (c : Char) : Bool := c == ';' || c == '\n' || c == '&' || c == '|'

/-- The tokens of a line; `word` has the characters of the word at hand, the last one first. -/
def tokens : Quoting → Option (List Char) → List Char → List Token
  | _, word, [] => finishWord word
  | mode, word, c :: rest =>
    let longer := some (c :: word.getD [])
    match mode with
    | .escaped => tokens .plain longer rest
    | .single => if c = '\'' then tokens .plain word rest else tokens .single longer rest
    | .doubleEscaped =>
      if c = '"' ∨ c = '\\' ∨ c = '$' then tokens .double longer rest
      else tokens .double (some (c :: '\\' :: word.getD [])) rest
    | .double =>
      if c = '"' then tokens .plain word rest
      else if c = '\\' then tokens .doubleEscaped word rest
      else tokens .double longer rest
    | .plain =>
      if c = '\'' then tokens .single (some (word.getD [])) rest
      else if c = '"' then tokens .double (some (word.getD [])) rest
      else if c = '\\' then tokens .escaped word rest
      else if c = ' ' ∨ c = '\t' then finishWord word ++ tokens .plain none rest
      else if c = '>' then
        match word with
        | some ['1'] => .redirect 1 :: tokens .plain none rest
        | some ['2'] => .redirect 2 :: tokens .plain none rest
        | word => finishWord word ++ .redirect 1 :: tokens .plain none rest
      else if isMark c then finishWord word ++ .mark c :: tokens .plain none rest
      else tokens .plain longer rest

/-- When a command is run. -/
inductive Connector where
  | always
  | afterSuccess
  | afterFailure
  deriving DecidableEq, Repr

/-- A command of a line. -/
structure Simple where
  connector : Connector
  words : List String := []
  /-- Whether what it prints is kept. -/
  printed : Bool := true
  deriving DecidableEq, Repr

/-- The commands of tokens; `current` is the command at hand. -/
def simples (current : Simple) : List Token → List Simple
  | [] => [current]
  | .redirect channel :: .mark '&' :: .word _ :: rest =>
    simples { current with printed := current.printed && channel != 1 } rest
  | .redirect channel :: .word _ :: rest =>
    simples { current with printed := current.printed && channel != 1 } rest
  | .redirect _ :: rest => simples current rest
  | .mark '&' :: .mark '&' :: rest => current :: simples { connector := .afterSuccess } rest
  | .mark '|' :: .mark '|' :: rest => current :: simples { connector := .afterFailure } rest
  | .mark _ :: rest => current :: simples { connector := .always } rest
  | .word cs :: rest => simples { current with words := current.words ++ [String.ofList cs] } rest

def commandsOfLine (line : String) : List Simple :=
  (simples { connector := .always } (tokens .plain none line.toList)).filter (!·.words.isEmpty)

end ServiceCompiler.Shell
