import ServiceCompiler.Sql.Engine

namespace ServiceCompiler

open Engine List

/-!
# The question for a table

A statement is read the way a database reads it: a quote opens a literal, two quotes in a row inside of it stand for
one, and a quote by itself closes it.  Table names are put between quotes, and none of them gets out.

* `LiteralScan` — where the reader stands, with the literals it has met; `LiteralScan.step` takes one character.
* `scanLiterals?` — the literals of a statement, each with the text in front of it, and the text behind the last one.
* `foldl_step_escapeQuotes` — escaped text leaves the reader inside the literal, whatever quotes it has.
* `scanLiterals?_tableExists` — hence the question for a table has one literal, which is the name and ends it.
-/

/-- A literal of a statement: the text it stands for, and the text between it and the literal before. -/
structure SqlLiteral where
  front : List Char
  value : List Char
  deriving DecidableEq, Repr

/-- Where the reader of a statement stands. -/
inductive LiteralScan where
  /-- Outside of literals, behind `text`. -/
  | outside (found : List SqlLiteral) (text : List Char)
  /-- Inside of a literal, of which `value` has been read. -/
  | inside (found : List SqlLiteral) (front value : List Char)
  /-- Behind a quote inside of a literal, which closes it unless another quote follows. -/
  | atQuote (found : List SqlLiteral) (front value : List Char)
  deriving DecidableEq, Repr

namespace LiteralScan

/-- The reader takes one character. -/
def step : LiteralScan → Char → LiteralScan
  | .outside found text, c => if c = '\'' then .inside found text [] else .outside found (text ++ [c])
  | .inside found front value, c =>
    if c = '\'' then .atQuote found front value else .inside found front (value ++ [c])
  | .atQuote found front value, c =>
    if c = '\'' then .inside found front (value ++ [c]) else .outside (found ++ [⟨front, value⟩]) [c]

/-- What has been found at the end of a statement, and the text behind it; none when a literal is still open. -/
def finish? : LiteralScan → Option (List SqlLiteral × List Char)
  | .outside found text => some (found, text)
  | .inside _ _ _ => none
  | .atQuote found front value => some (found ++ [⟨front, value⟩], [])

/-! ### Steps over a text -/

variable {found : List SqlLiteral} {front value : List Char}

theorem foldl_step_outside {text cs : List Char} (h : '\'' ∉ cs) :
    cs.foldl step (.outside found text) = .outside found (text ++ cs) := by
  induction cs generalizing text with
  | nil => rw [append_nil, foldl_nil]
  | cons c cs ih =>
    rw [mem_cons, not_or] at h
    rw [foldl_cons, step, if_neg (Ne.symm h.1), ih h.2, append_assoc, singleton_append]

/-- One character of the text, a quote or not, is one character of the value. -/
theorem foldl_step_escapeQuotes_singleton (c : Char) :
    (escapeQuotes [c]).foldl step (.inside found front value) = .inside found front (value ++ [c]) := by
  by_cases hc : c = '\''
  · subst hc
    rfl
  · simp [escapeQuotes, step, hc]

/-- **Escaped text stays inside of the literal** and adds itself to the value. -/
theorem foldl_step_escapeQuotes (cs : List Char) :
    (escapeQuotes cs).foldl step (.inside found front value) = .inside found front (value ++ cs) := by
  induction cs generalizing value with
  | nil => rw [append_nil]; rfl
  | cons c cs ih =>
    have hcons : escapeQuotes (c :: cs) = escapeQuotes [c] ++ escapeQuotes cs := by
      simp [escapeQuotes]
    rw [hcons, foldl_append, foldl_step_escapeQuotes_singleton, ih, append_assoc, singleton_append]

end LiteralScan

/-- The literals of a statement and the text behind the last one; none when a literal is not closed. -/
def scanLiterals? (statement : List Char) : Option (List SqlLiteral × List Char) :=
  (statement.foldl LiteralScan.step (.outside [] [])).finish?

/-- A text between quotes at the end of a statement is its last literal. -/
theorem scanLiterals?_quoted {front : List Char} (hfront : '\'' ∉ front) (value : List Char) :
    scanLiterals? (front ++ '\'' :: (escapeQuotes value ++ ['\''])) = some ([⟨front, value⟩], []) := by
  rw [scanLiterals?, foldl_append, LiteralScan.foldl_step_outside hfront, foldl_cons, LiteralScan.step,
    if_pos rfl, foldl_append, LiteralScan.foldl_step_escapeQuotes]
  rfl

/-- A quote that is not escaped closes the literal too early. -/
example : scanLiterals? "'o'brien'".toList = none := by decide

/-! ### The question -/

/-- The question for a table up to its name. -/
def catalogQuestion : String := "SELECT COUNT(*) FROM INFORMATION_SCHEMA.TABLES WHERE TABLE_NAME = "

theorem tableExists_eq (table : String) :
    mssql.tableExists table =
      catalogQuestion ++ "'" ++ String.ofList (escapeQuotes table.toList) ++ "'" := by
  have hlead : "SELECT COUNT(*) FROM INFORMATION_SCHEMA.TABLES WHERE TABLE_NAME = '" = catalogQuestion ++ "'" := rfl
  rw [← hlead]
  rfl

theorem toList_tableExists (table : String) :
    (mssql.tableExists table).toList =
      catalogQuestion.toList ++ '\'' :: (escapeQuotes table.toList ++ ['\'']) := by
  have hquote : "'".toList = ['\''] := rfl
  rw [tableExists_eq, String.toList_append, String.toList_append, String.toList_append, hquote, String.toList_ofList,
    append_assoc, append_assoc, singleton_append]

/-- **No table name gets out of its quotes**: the question for a table has exactly one literal.  It stands for the name
    and ends the statement, and what is in front of it does not depend on the name. -/
theorem scanLiterals?_tableExists (table : String) :
    scanLiterals? (Engine.mssql.tableExists table).toList =
      some ([⟨catalogQuestion.toList, table.toList⟩], []) := by
  rw [toList_tableExists, scanLiterals?_quoted (by simp [catalogQuestion])]

end ServiceCompiler
