import ServiceCompiler.Document.Cursor

namespace ServiceCompiler.Document

/-!
# Tokens

The tokens of a document: the marks and scalars that stand in it, and the starts and ends of blocks
that its indentation stands for.
-/

inductive TokenKind where
  | versionDirective (major minor : Nat)
  | tagDirective (handle lead : String)
  | documentStart
  | documentEnd
  | streamEnd
  | blockSequenceStart
  | blockMappingStart
  | blockEnd
  | flowSequenceStart
  | flowSequenceEnd
  | flowMappingStart
  | flowMappingEnd
  | blockEntry
  | flowEntry
  | key
  | value
  | alias (name : String)
  | anchor (name : String)
  | tag (handle suffix : String)
  | scalar (isPlain : Bool) (text : String)
  deriving DecidableEq, Repr

/-- A token and the line it starts on. -/
structure Token where
  kind : TokenKind
  line : Nat
  deriving DecidableEq, Repr

end ServiceCompiler.Document
