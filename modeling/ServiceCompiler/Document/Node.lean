import ServiceCompiler.Document.Lexer
import ServiceCompiler.Document.Scalar

namespace ServiceCompiler.Document

/-!
# Nodes

The tree that the tokens of a document describe.  A node with an anchor gets a number, and an alias
stands for the node of a number, which may be one that contains the alias.
-/

/-- A node with the line it starts on and its tag. -/
inductive Node where
  | scalar (line : Nat) (tag value : String)
  | sequence (line : Nat) (tag : String) (items : List Node)
  | mapping (line : Nat) (tag : String) (entries : List (Node × Node))
  | alias (line : Nat) (name : String) (number : Nat)
  deriving Repr, Inhabited

namespace Node

def line : Node → Nat
  | .scalar line .. => line
  | .sequence line .. => line
  | .mapping line .. => line
  | .alias line .. => line

/-- The tag of a node; an alias has none. -/
def tag : Node → String
  | .scalar _ tag _ => tag
  | .sequence _ tag _ => tag
  | .mapping _ tag _ => tag
  | .alias .. => ""

end Node

/-- The long form of the tags of the format itself. -/
def tagLead : String := "tag:yaml.org,2002:"

def shortTag (tag : String) : String :=
  match Text.stripLead? tagLead.toList tag.toList with
  | some rest => "!!" ++ String.ofList rest
  | none => tag

/-- The tag of a node: the one given, where it says anything. -/
def tagOr (given : Option String) (default : String) : String :=
  match given with
  | none => default
  | some tag => if tag = "" ∨ tag = "!" then default else shortTag tag

/-- The tag of a scalar that has none. -/
def scalarTag (isPlain : Bool) (text : String) : String :=
  if !isPlain then strTag else if text = "<<" then mergeTag else (Scalar.ofPlain text).tag

def emptyNode (line : Nat) : Node := .scalar line nullTag ""

/-! ### Reading nodes -/

/-- The state of reading nodes: where the tokens come from, the anchors by name, latest first, the nodes
    they stand for, and the tag handles. -/
structure Composer where
  lexer : Lexer
  names : List (String × Nat) := []
  anchored : List (Nat × Node) := []
  count : Nat := 0
  handles : List (String × String) := []

/-- Reading nodes, which fails when the tokens describe none. -/
abbrev Compose := StateT Composer Option

namespace Compose

/-- The next token. -/
def peek : Compose Token := fun s => do
  let lexer ← s.lexer.filled?
  let token ← lexer.queue.head?
  return (token, { s with lexer })

def peekKind : Compose TokenKind := do return (← peek).kind

/-- Leaves out the next token. -/
def skip : Compose Unit := modify fun s => { s with lexer := s.lexer.handOut }

def fail {α : Type} : Compose α := fun _ => none

/-- The properties in front of a node. -/
structure Properties where
  anchor : Option String := none
  tag : Option (String × String) := none

/-- Reads an anchor. -/
def anchorName : Compose (Option String) := do
  match ← peekKind with
  | .anchor name => skip; return some name
  | _ => return none

/-- Reads a tag. -/
def tagParts : Compose (Option (String × String)) := do
  match ← peekKind with
  | .tag handle suffix => skip; return some (handle, suffix)
  | _ => return none

/-- Reads an anchor and a tag, in either order. -/
def properties : Compose Properties := do
  match ← anchorName with
  | some anchor => return { anchor := some anchor, tag := ← tagParts }
  | none =>
    match ← tagParts with
    | some tag => return { anchor := ← anchorName, tag := some tag }
    | none => return {}

/-- The tag that a handle and a suffix stand for; the handle has to be known. -/
def fullTag (handle suffix : String) : Compose String := do
  if handle = "" then return suffix
  match (← get).handles.lookup handle with
  | some lead => if lead ++ suffix = "" then fail else return lead ++ suffix
  | none => fail

/-- The number of a new anchor. -/
def register (name : String) : Compose Nat := do
  let s ← get
  set { s with names := (name, s.count) :: s.names, count := s.count + 1 }
  return s.count

/-- Keeps a finished node under the number of its anchor. -/
def keep (number : Option Nat) (node : Node) : Compose Node := do
  match number with
  | some n => modify fun s => { s with anchored := (n, node) :: s.anchored }
  | none => pure ()
  return node

/-- Whether a block entry has no node of its own in front of the token. -/
def endsEntry (indentless : Bool) : TokenKind → Bool
  | .blockEntry => true
  | .blockEnd => true
  | .key => indentless
  | .value => indentless
  | _ => false

/-- Whether a key or value of a block has no node of its own in front of the token. -/
def endsPart : TokenKind → Bool
  | .key => true
  | .value => true
  | .blockEnd => true
  | _ => false

/-- Whether a key or value between braces has no node of its own in front of the token. -/
def endsFlowPart : TokenKind → Bool
  | .value => true
  | .flowEntry => true
  | .flowMappingEnd => true
  | _ => false

mutual

/-- Reads a node.  Block collections are found only where `block` holds, and sequences without
    indentation of their own only where `indentless` holds. -/
def node : Nat → Bool → Bool → Compose Node
  | 0, _, _ => fail
  | fuel + 1, block, indentless => do
    let first ← peek
    match first.kind with
    | .alias name =>
      skip
      match (← get).names.lookup name with
      | some n => return .alias first.line name n
      | none => fail
    | _ => pure ()
    let p ← properties
    let tag ←
      match p.tag with
      | some (handle, suffix) => do pure (some (← fullTag handle suffix))
      | none => pure none
    let token ← peek
    let number ←
      match p.anchor with
      | some name => do pure (some (← register name))
      | none => pure none
    match token.kind with
    | .scalar isPlain value =>
      skip
      keep number (.scalar first.line (tagOr tag (scalarTag isPlain value)) value)
    | .flowSequenceStart =>
      skip
      let items ← flowItems fuel true
      keep number (.sequence first.line (tagOr tag seqTag) items)
    | .flowMappingStart =>
      skip
      let entries ← flowEntries fuel true
      keep number (.mapping first.line (tagOr tag mapTag) entries)
    | kind =>
      if indentless && kind = .blockEntry then
        let items ← blockItems fuel true
        keep number (.sequence first.line (tagOr tag seqTag) items)
      else if block && kind = .blockSequenceStart then
        skip
        let items ← blockItems fuel false
        keep number (.sequence first.line (tagOr tag seqTag) items)
      else if block && kind = .blockMappingStart then
        skip
        let entries ← blockEntries fuel
        keep number (.mapping first.line (tagOr tag mapTag) entries)
      else if p.anchor.isSome || p.tag.isSome then
        keep number (.scalar first.line (tagOr tag (scalarTag true "")) "")
      else fail

/-- Reads the items of a block sequence and its end; one without indentation has none. -/
def blockItems : Nat → Bool → Compose (List Node)
  | 0, _ => fail
  | fuel + 1, indentless => do
    let token ← peek
    if token.kind = .blockEntry then
      skip
      let item ← if endsEntry indentless (← peekKind) then pure (emptyNode token.line)
        else node fuel true false
      let rest ← blockItems fuel indentless
      return item :: rest
    else if indentless then return []
    else if token.kind = .blockEnd then
      skip
      return []
    else fail

/-- Reads the entries of a block mapping and its end. -/
def blockEntries : Nat → Compose (List (Node × Node))
  | 0 => fail
  | fuel + 1 => do
    let token ← peek
    if token.kind = .key then
      skip
      let key ← if endsPart (← peekKind) then pure (emptyNode token.line) else node fuel true true
      let mark ← peek
      let value ←
        if mark.kind = .value then do
          skip
          if endsPart (← peekKind) then pure (emptyNode mark.line) else node fuel true true
        else pure (emptyNode mark.line)
      let rest ← blockEntries fuel
      return (key, value) :: rest
    else if token.kind = .blockEnd then
      skip
      return []
    else fail

/-- Reads the items between brackets and the closing bracket. -/
def flowItems : Nat → Bool → Compose (List Node)
  | 0, _ => fail
  | fuel + 1, first => do
    if (← peekKind) = .flowSequenceEnd then
      skip
      return []
    if !first then
      if (← peekKind) = .flowEntry then skip else fail
    let token ← peek
    if token.kind = .flowSequenceEnd then
      skip
      return []
    else if token.kind = .key then
      skip
      let entry ← flowPair fuel
      let rest ← flowItems fuel false
      return .mapping token.line mapTag [entry] :: rest
    else
      let item ← node fuel false false
      let rest ← flowItems fuel false
      return item :: rest

/-- Reads the only entry of a mapping between brackets, behind the mark of its key.  A mark in the
    place of the key is taken for it. -/
def flowPair : Nat → Compose (Node × Node)
  | 0 => fail
  | fuel + 1 => do
    let token ← peek
    let key ←
      if token.kind = .value || token.kind = .flowEntry || token.kind = .flowSequenceEnd then do
        skip
        pure (emptyNode token.line)
      else node fuel false false
    let mark ← peek
    if mark.kind = .value then
      skip
      let next ← peek
      if next.kind = .flowEntry || next.kind = .flowSequenceEnd then
        return (key, emptyNode next.line)
      return (key, ← node fuel false false)
    return (key, emptyNode mark.line)

/-- Reads the entries between braces and the closing brace. -/
def flowEntries : Nat → Bool → Compose (List (Node × Node))
  | 0, _ => fail
  | fuel + 1, first => do
    if (← peekKind) = .flowMappingEnd then
      skip
      return []
    if !first then
      if (← peekKind) = .flowEntry then skip else fail
    let token ← peek
    if token.kind = .flowMappingEnd then
      skip
      return []
    else if token.kind = .key then
      skip
      let next ← peek
      let key ← if endsFlowPart next.kind then pure (emptyNode next.line) else node fuel false false
      let mark ← peek
      let value ←
        if mark.kind = .value then do
          skip
          let next ← peek
          if next.kind = .flowEntry || next.kind = .flowMappingEnd then pure (emptyNode next.line)
          else node fuel false false
        else pure (emptyNode mark.line)
      let rest ← flowEntries fuel false
      return (key, value) :: rest
    else
      let key ← node fuel false false
      let mark ← peek
      let rest ← flowEntries fuel false
      return (key, emptyNode mark.line) :: rest

end

/-! ### Documents -/

/-- The tag handles that need no directive. -/
def defaultHandles : List (String × String) := [("!", "!"), ("!!", tagLead)]

/-- Reads directives; only one version is accepted, and nothing may be said twice. -/
def directives : Nat → Bool → Compose Unit
  | 0, _ => fail
  | fuel + 1, versioned => do
    match ← peekKind with
    | .versionDirective major minor =>
      if versioned || major != 1 || minor != 1 then fail
      skip
      directives fuel true
    | .tagDirective handle lead =>
      if ((← get).handles.lookup handle).isSome then fail
      skip
      modify fun s => { s with handles := s.handles ++ [(handle, lead)] }
      directives fuel versioned
    | _ => pure ()

/-- Whether a document without a node ends in front of the token. -/
def endsDocument : TokenKind → Bool
  | .versionDirective _ _ => true
  | .tagDirective _ _ => true
  | .documentStart => true
  | .documentEnd => true
  | .streamEnd => true
  | _ => false

/-- Reads the first document; there may be none.  The token behind it has to be readable. -/
def document (fuel : Nat) : Compose (Option Node) := do
  let kind ← peekKind
  if kind = .streamEnd then return none
  let root ←
    if kind = .documentEnd then node fuel true false
    else if endsDocument kind then do
      directives fuel false
      let missing := fun (s : Composer) =>
        defaultHandles.filter fun h => (s.handles.lookup h.1).isNone
      modify fun s => { s with handles := s.handles ++ missing s }
      if (← peekKind) != .documentStart then fail
      skip
      let token ← peek
      if endsDocument token.kind then pure (emptyNode token.line) else node fuel true false
    else do
      modify fun s => { s with handles := defaultHandles }
      node fuel true false
  discard peek
  return some root

end Compose

/-- A tree with the nodes of its anchors. -/
structure Tree where
  root : Option Node
  anchored : List (Nat × Node)
  /-- A bound on the number of nodes. -/
  size : Nat
  deriving Repr

/-- The tree of the first document of a text; `none` when there is none to be read. -/
def Tree.ofText? (text : String) : Option Tree := do
  let cs := text.toList
  let (root, s) ← (Compose.document (8 * cs.length + 16)).run { lexer := .ofText cs }
  return { root, anchored := s.anchored, size := cs.length + 1 }

end ServiceCompiler.Document
