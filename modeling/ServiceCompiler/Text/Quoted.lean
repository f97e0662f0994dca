import ServiceCompiler.Text.Printable

namespace ServiceCompiler.Text

/-!
# Quoted text

A quoted text stands between two marks.  The mark and the backslash are escaped by a backslash,
printable characters stand for themselves, and every other character has an escape: a letter where
there is one, otherwise its code point in two, four or eight hexadecimal digits.
-/

/-- The escape of a character that is not printable. -/
def escapeCode (c : Char) : List Char :=
  let n := c.toNat
  if n = 0x07 then ['\\', 'a']
  else if n = 0x08 then ['\\', 'b']
  else if n = 0x0c then ['\\', 'f']
  else if n = 0x0a then ['\\', 'n']
  else if n = 0x0d then ['\\', 'r']
  else if n = 0x09 then ['\\', 't']
  else if n = 0x0b then ['\\', 'v']
  else if n < 0x20 ∨ n = 0x7f then '\\' :: 'x' :: hex 2 n
  else if n < 0x10000 then '\\' :: 'u' :: hex 4 n
  else '\\' :: 'U' :: hex 8 n

/-- One character as it stands between the marks. -/
def quoteChar (mark c : Char) : List Char :=
  if c = mark ∨ c = '\\' then ['\\', c]
  else if isPrintable c then [c]
  else escapeCode c

/-- The text between two marks. -/
def quoteWith (mark : Char) (cs : List Char) : List Char :=
  mark :: cs.flatMap (quoteChar mark) ++ [mark]

/-- The text in double quotes. -/
def quoted (s : String) : String := String.ofList (quoteWith '"' s.toList)

/-- The character in single quotes. -/
def quotedChar (c : Char) : String := String.ofList (quoteWith '\'' [c])

end ServiceCompiler.Text
