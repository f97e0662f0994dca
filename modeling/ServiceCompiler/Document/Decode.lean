import ServiceCompiler.Document.Base64
import ServiceCompiler.Document.Node

namespace ServiceCompiler.Document

/-!
# Decoding

Values are decoded over what is there already: nothing in the document leaves it as it is.  Values of
a wrong type are collected and reading goes on; a few faults end it.

* `text`, `number`, `flag`, `list`, `record` are the decoders.
* `Decode.run` decodes the first document of a text.
-/

/-- What decoding goes by: where the nodes of aliases are found, how deep merges may go, and whether a
    node is being decoded for an alias. -/
structure Anchors where
  nodes : List (Nat × Node)
  depth : Nat
  isAliased : Bool := false

/-- What decoding keeps: the errors on types, last one first, and the number of nodes decoded, in all
    and for aliases. -/
structure Tally where
  errors : List String := []
  steps : Nat := 0
  aliasSteps : Nat := 0

/-- Whether too large a part of the nodes was decoded for aliases: 99 of 100 are let pass in documents
    of up to 400000 nodes, one of 10 from 4000000 on, and in between the part falls evenly. -/
def Tally.isExcessive (t : Tally) : Bool :=
  let tooMany :=
    if t.steps ≤ 400000 then 99 * t.steps < 100 * t.aliasSteps
    else if 4000000 ≤ t.steps then t.steps < 10 * t.aliasSteps
    else t.steps * (356400000 - 89 * (t.steps - 400000)) < 360000000 * t.aliasSteps
  t.aliasSteps > 100 && t.steps > 1000 && tooMany

/-- Why decoding ends: the document makes no sense, or a key to be merged around is a collection, which
    the program does not survive. -/
inductive Fault where
  | malformed
  | collectionKey
  deriving DecidableEq, Repr

/-- Decoding, which collects the errors on types and ends on other faults. -/
abbrev Decode := ReaderT Anchors (StateT Tally (Except Fault))

namespace Decode

/-- Ends decoding. -/
def fail {α : Type} : Decode α := throw .malformed

/-- Notes an error on the types. -/
def note (line : Nat) (message : String) : Decode Unit :=
  modify fun t =>
    { t with errors := ("line " ++ Text.decimal line ++ ": " ++ message) :: t.errors }

/-- Counts a node. -/
def step : Decode Unit := do
  let isAliased := (← read).isAliased
  modify fun t =>
    { t with steps := t.steps + 1, aliasSteps := t.aliasSteps + (if isAliased then 1 else 0) }
  if (← get).isExcessive then fail

/-- The node that an alias stands for; any other node stands for itself. -/
def target : Node → Decode Node
  | .alias _ _ n => do
    match (← read).nodes.lookup n with
    | some node => return node
    | none => fail
  | node => return node

/-- Decodes a node, which is that of another place if it is an alias. -/
def enter {α : Type} (node : Node) (decode : Node → Decode α) : Decode α := do
  step
  match node with
  | .alias .. => do
    let node ← target node
    withReader ({ · with isAliased := true }) (do step; decode node)
  | node => decode node

/-- A value as it is shown in an error: the first octets of a long one. -/
def excerpt (value : String) : String :=
  let octets := Text.Octets.ofString value
  if octets.length > 10 then Text.Octets.toText (octets.take 7) ++ "..." else value

/-- Notes that a node is not of the type that is named. -/
def mismatch (type : String) (line : Nat) (tag value : String) : Decode Unit :=
  let shown := if tag = seqTag ∨ tag = mapTag then value else " \x60" ++ excerpt value ++ "\x60"
  note line ("cannot unmarshal " ++ tag ++ shown ++ " into " ++ type)

/-- What makes two keys the same: their kind and their text. -/
def keyText : Node → Nat × String
  | .scalar _ _ value => (0, value)
  | .sequence .. => (1, "")
  | .mapping .. => (2, "")
  | .alias _ name _ => (3, name)

/-- Notes the keys that occur again, for each key in turn. -/
def noteRepeats : List Node → Decode Unit
  | [] => pure ()
  | key :: rest => do
    for other in rest do
      if keyText other == keyText key then
        note other.line ("mapping key " ++ Text.quoted (keyText other).2 ++ " already defined at line "
          ++ Text.decimal key.line)
    noteRepeats rest

/-- Whether keys of a mapping occur again, which is noted. -/
def hasRepeats (entries : List (Node × Node)) : Decode Bool := do
  let before := (← get).errors.length
  noteRepeats (entries.map (·.1))
  return (← get).errors.length > before

/-- Notes that a node is not of the type that is named; of a mapping, that keys occur again comes
    first. -/
def mismatchNode (type : String) : Node → Decode Unit
  | .scalar line tag value => mismatch type line tag value
  | .sequence line tag _ => mismatch type line tag ""
  | .mapping line tag entries => do
    if !(← hasRepeats entries) then mismatch type line tag ""
  | .alias line _ _ => mismatch type line "" ""

/-- The meaning of a scalar, and its text. -/
def meaning (tag value : String) : Decode (Scalar × String) :=
  if tag = binaryTag then
    match base64? value.toList with
    | some octets => return (.text octets.toText, octets.toText)
    | none => fail
  else
    match Scalar.resolve tag value with
    | some m => return (m, value)
    | none => fail

/-! ### Plain values -/

def text (type : String) (node : Node) : Decode (Option String) :=
  enter node fun
    | .scalar _ tag value => do
      let (m, s) ← meaning tag value
      return if m = .null then none else some s
    | node => do
      mismatchNode type node
      return none

def leastNumber : Int := -(Number.signedLimit : Int)

/-- The number of 64 bits that a meaning stands for: a real number loses its fraction, and one out of
    range becomes the least number unless it is too large. -/
def numberOf? : Scalar → Option Int
  | .integer n => if n < Number.signedLimit then some n else none
  | .real negative b =>
    let n := b.floor
    if negative then some (if n ≤ Number.signedLimit then Int.neg n else leastNumber)
    else if n < Number.signedLimit then some n
    else if n = Number.signedLimit && b.isIntegral then some leastNumber
    else none
  | .infinite true => some leastNumber
  | _ => none

/-- The value of the named type that the meaning of a scalar stands for. -/
def scalarOf {α : Type} (type : String) (of? : Scalar → Option α) (node : Node) : Decode (Option α) :=
  enter node fun
    | .scalar line tag value => do
      let (m, _) ← meaning tag value
      if m = .null then return none
      match of? m with
      | some a => return some a
      | none =>
        mismatch type line tag value
        return none
    | node => do
      mismatchNode type node
      return none

def number : Node → Decode (Option Int) := scalarOf "int" numberOf?

/-- The truth value that a meaning stands for; some words count besides the usual ones. -/
def flagOf? : Scalar → Option Bool
  | .flag b => some b
  | .text s =>
    if ["y", "Y", "yes", "Yes", "YES", "on", "On", "ON"].contains s then some true
    else if ["n", "N", "no", "No", "NO", "off", "Off", "OFF"].contains s then some false
    else none
  | _ => none

def flag : Node → Decode (Option Bool) := scalarOf "bool" flagOf?

/-! ### Lists -/

/-- A list of the named type.  Nothing in its place gives no list, and items that cannot be decoded are
    left out. -/
def list {α : Type} (type : String) (item : Node → Decode (Option α)) (node : Node) :
    Decode (Option (Option (List α))) :=
  enter node fun
    | .sequence _ _ items => do
      let decoded ← items.mapM item
      return some (some (decoded.filterMap id))
    | .scalar line tag value => do
      let (m, _) ← meaning tag value
      if m = .null then return some none
      mismatch type line tag value
      return none
    | node => do
      mismatchNode type node
      return none

/-! ### Keys and merges -/

/-- Whether the key asks to merge other mappings. -/
def isMerge : Node → Bool
  | .scalar _ tag value => value == "<<" && tag == mergeTag
  | _ => false

/-- The node with the aliases that are open, to which it is added if it is one; an open alias may not be
    met again. -/
def opening (active : List Nat) : Node → Decode (List Nat)
  | .alias _ _ n => if active.contains n then fail else return n :: active
  | _ => return active

/-- The mappings that a merge names: one, or a sequence of them. -/
def mergeSources (node : Node) : Decode (List Node) := do
  let nodes := (← read).nodes
  let isMapping : Node → Bool
    | .mapping .. => true
    | .alias _ _ n =>
      match nodes.lookup n with
      | some (.mapping ..) => true
      | _ => false
    | _ => false
  let sources :=
    match node with
    | .sequence _ _ items => items
    | n => [n]
  if sources.all isMapping then return sources else fail

/-- What a node stands for as a key. -/
inductive Key where
  | text (s : String)
  | scalar
  | collection
  deriving DecidableEq, Repr

/-- Decodes a node of no known type, to see what it is as a key; `none` when keys in it occur again.
    Around mappings that are being merged, and inside others, a collection cannot be a key. -/
def key : Nat → Bool → List Nat → Node → Decode (Option Key)
  | 0, _, _, _ => fail
  | fuel + 1, isMerging, active, node => do
    let active ← opening active node
    enter node fun
      | .scalar _ tag value => do
        let (m, s) ← meaning tag value
        return match m with
          | .text _ => some (.text s)
          | _ => some .scalar
      | .sequence _ _ items => do
        items.forM fun item => discard (key fuel isMerging active item)
        return some .collection
      | .mapping _ _ entries => do
        if ← hasRepeats entries then return none
        entries.forM fun (k, value) => do
          if !isMerge k then
            match ← key fuel false active k with
            | none => pure ()
            | some .collection => if isMerging then throw .collectionKey else fail
            | some _ => discard (key fuel false active value)
        match (entries.filter fun e => isMerge e.1).getLast? with
        | none => pure ()
        | some (_, sources) =>
          if !isMerging then entries.forM fun (k, _) => discard (key fuel true active k)
          (← mergeSources sources).forM fun source => discard (key fuel true active source)
        return some .collection
      | .alias .. => fail

/-- The texts of the keys of a mapping that is merged into, none of which may be a collection. -/
def keyNames (keys : List Node) : Decode (List String) := do
  let depth := (← read).depth
  let names ← keys.mapM fun k => do
    match ← key depth true [] k with
    | some (.text s) => return [s]
    | some .collection => throw .collectionKey
    | _ => return []
  return names.flatten

/-! ### Records -/

/-- A member of a record: how a node changes the record. -/
abbrev Member (α : Type) := String × (α → Node → Decode α)

/-- The state of going through the entries of a mapping: the record so far, the members set, the names
    that may not be set any more when the mapping is being merged, and what is to be merged. -/
structure Progress (α : Type) where
  value : α
  done : List String := []
  merged : Option (List String) := none
  merge : Option Node := none

/-- Takes one entry of a mapping. -/
def entry {α : Type} (type : String) (members : List (Member α)) (p : Progress α)
    (e : Node × Node) : Decode (Progress α) := do
  if isMerge e.1 then return { p with merge := some e.2 }
  match ← text "string" e.1 with
  | none => return p
  | some name =>
    if ((p.merged.map (·.contains name)).getD false) then return p
    let p := { p with merged := p.merged.map (name :: ·) }
    match members.lookup name with
    | none => return p
    | some set =>
      if p.done.contains name then
        note e.1.line ("field " ++ name ++ " already set in type " ++ type)
        return p
      else
        let value ← set p.value e.2
        return { p with value, done := name :: p.done }

/-- Decodes a record of the named type over a value, for which some aliases are open.  The result tells
    whether there was one, and the names set so far when it is being merged into another. -/
def recordFrom {α : Type} (type : String) (members : List (Member α)) :
    Nat → List Nat → Option (List String) → α → Node → Decode (α × Option (List String) × Bool)
  | 0, _, _, _, _ => fail
  | fuel + 1, active, merged, value, node => do
    let active ← opening active node
    enter node fun
      | .mapping _ _ entries => do
        if ← hasRepeats entries then return (value, merged, false)
        let p ← entries.foldlM (entry type members) { value, merged }
        match p.merge with
        | none => return (p.value, p.merged, true)
        | some sources =>
          let names ←
            match p.merged with
            | some names => pure names
            | none => keyNames (entries.map (·.1))
          let step := fun (acc : α × Option (List String)) (n : Node) => do
            let (v, m, _) ← recordFrom type members fuel active acc.2 acc.1 n
            return (v, m)
          let (v, m) ← (← mergeSources sources).foldlM step (p.value, some names)
          return (v, if p.merged.isSome then m else none, true)
      | .scalar line tag v => do
        let (m, _) ← meaning tag v
        if m ≠ .null then mismatch type line tag v
        return (value, merged, false)
      | node => do
        mismatchNode type node
        return (value, merged, false)

/-- Decodes a record of the named type over a value; none when nothing can be taken over. -/
def record {α : Type} (type : String) (members : List (Member α)) (value : α) (node : Node) :
    Decode (Option α) := do
  let (v, _, found) ← recordFrom type members (← read).depth [] none value node
  return if found then some v else none

/-! ### Whole texts -/

/-- A document that cannot be decoded: for a fault, or because it has values of wrong types. -/
inductive Error where
  | fault (f : Fault)
  | types (messages : List String)
  deriving DecidableEq, Repr

/-- Decodes the first document of a text over a value, which stays as it is when there is none. -/
def run {α : Type} (decoder : α → Node → Decode α) (value : α) (source : String) :
    Except Error α :=
  match Tree.ofText? source with
  | none => .error (.fault .malformed)
  | some tree =>
    match tree.root with
    | none => .ok value
    | some root =>
      let anchors : Anchors := { nodes := tree.anchored, depth := tree.size * tree.size + 1 }
      match decoder value root anchors { steps := 1 } with
      | .error f => .error (.fault f)
      | .ok (v, tally) =>
        if tally.errors.isEmpty then .ok v else .error (.types tally.errors.reverse)

end Decode

end ServiceCompiler.Document
