import ServiceCompiler.Failure
import ServiceCompiler.Number.Duration

namespace ServiceCompiler

/-!
# Log records

What a run reports while it works: a level, a message and named values, written on one line.
-/

/-- How serious a record is. -/
inductive LogLevel where
  | debug
  | info
  | warn
  | error
  deriving DecidableEq, Repr

inductive LogValue where
  | text (s : String)
  | number (n : Int)
  | flag (b : Bool)
  | failure (f : Failure)
  | duration (d : Number.Duration)
  /-- The time that the reported work took, which is known when the record is written. -/
  | elapsed
  deriving Repr

structure LogRecord where
  level : LogLevel
  message : String
  attributes : List (String × LogValue) := []
  deriving Repr

def LogLevel.name : LogLevel → String
  | .debug => "DEBUG"
  | .info => "INFO"
  | .warn => "WARN"
  | .error => "ERROR"

/-- The text of a value; `elapsed` is the time to report. -/
def LogValue.shown (elapsed : Number.Duration) : LogValue → String
  | .text s => s
  | .number n => Text.decimalInt n
  | .flag b => if b then "true" else "false"
  | .failure f => f.text
  | .duration d => d.text
  | .elapsed => elapsed.text

namespace LogRecord

/-- Whether a character makes a text be quoted. -/
def needsQuotes (c : Char) : Bool :=
  if c.toNat < 0x80 then c.toNat ≤ 0x20 || c == '=' || c == '"'
  else c.toNat == 0xfffd || Text.isBlank c || !Text.isPrintable c

/-- A text as it stands in a line: quoted when it is empty or has a character that could be taken for
    the structure of the line. -/
def lineText (s : String) : String :=
  if s = "" ∨ s.toList.any needsQuotes then Text.quoted s else s

/-- A value as it stands in a line.  Only texts are ever quoted. -/
def lineValue (elapsed : Number.Duration) (v : LogValue) : String :=
  match v with
  | .text s => lineText s
  | .failure f => lineText f.text
  | v => v.shown elapsed

def line (elapsed : Number.Duration) (r : LogRecord) : String :=
  " ".intercalate
    (("level=" ++ r.level.name) :: ("msg=" ++ lineText r.message)
      :: r.attributes.map fun (key, v) => key ++ "=" ++ lineValue elapsed v)

end LogRecord

end ServiceCompiler
