import ProviderCatalog.Yaml.Kind
import ProviderCatalog.Yaml.Layout

/-!
# Nodes of a document

A document is one node. Nodes are put together from tokens; a name given to a node stands for it
from there on, and inside the collection that bears the name it stands for an empty one. The entries
that a merge key brings in come before a mapping's own.

## Main definitions

* `Node`: scalars, sequences and mappings with their kinds.
* `Composition`, `Compose`: putting nodes together.
* `Compose.node`: a node by the grammar; `Node.ofTokens?`: the node of a document.
-/

namespace ProviderCatalog.Yaml

/-- A node of a document. -/
inductive Node where
  | scalar (kind : Kind) (text : Text)
  | sequence (kind : Kind) (items : List Node)
  | mapping (kind : Kind) (entries : List (Node × Node))

namespace Node

/-- The node that stands where nothing is written. -/
def absent : Node := scalar .null []

/-- The entries that a node brings in under a merge key: its own if it is a mapping, and those of
its items, the first item last, if it is a sequence of mappings. -/
def merged? : Node → Option (List (Node × Node))
  | scalar .. => none
  | mapping _ es => some es
  | sequence _ xs => do
    let found ← xs.mapM fun
      | mapping _ es => some es
      | _ => none
    return found.reverse.flatten

/-- Whether a key merges its value into the mapping. -/
def isMerge : Node → Bool
  | scalar .merge _ => true
  | _ => false

/-- A key as a mapping has it. -/
def asKey : Node → Node
  | scalar .standIn t => scalar .text t
  | x => x

/-- The entries of a mapping with the merged ones in front. -/
def withMerged? (entries : List (Node × Node)) : Option (List (Node × Node)) := do
  let (merges, own) := entries.partition (·.1.isMerge)
  let found ← merges.mapM (·.2.merged?)
  return found.flatten ++ own.map fun (k, v) => (k.asKey, v)

end Node

/-- What is known while nodes are put together. -/
structure Composition where
  tokens : List Token
  /-- What the handles of tags stand for. -/
  handles : List (List Char × List Char)
  /-- The named nodes. -/
  named : List (List Char × Node)

/-- Putting nodes together. -/
abbrev Compose := StateT Composition (Except Fault)

/-- Where a node stands. -/
inductive Position where
  | inFlow
  | inBlock
  /-- In a block mapping, where the items of a sequence need no indentation. -/
  | inEntry
deriving DecidableEq

namespace Compose

/-- Gives up. -/
def refuse {α : Type} : Compose α := throw .malformed

/-- The next token, if there is one. -/
def next? : Compose (Option Token) := return (← get).tokens.head?

/-- Passes over a token. -/
def advance : Compose Unit := modify fun c => { c with tokens := c.tokens.tail }

/-- Passes over a token if it is the given one, and says whether it is. -/
def take (t : Token) : Compose Bool := do
  if (← next?) = some t then
    advance
    return true
  else return false

/-- Passes over the given token. -/
def require (t : Token) : Compose Unit := do
  if !(← take t) then refuse

/-- A number of repetitions that no reader exceeds. -/
def bound : Compose Nat := return (← get).tokens.length + 1

/-! ### Marks of nodes -/

/-- What a tag stands for. -/
def resolve (handle : Option (List Char)) (suffix : List Char) : Compose (List Char) := do
  match handle with
  | none => return suffix
  | some h =>
    match (← get).handles.lookup h with
    | some s => return s ++ suffix
    | none => refuse

/-- Reads a name for a node, if there is one. -/
def name? : Compose (Option (List Char)) := do
  match ← next? with
  | some (.anchor a) =>
    advance
    return some a
  | _ => return none

/-- Reads a tag, if there is one. -/
def tag? : Compose (Option (List Char)) := do
  match ← next? with
  | some (.tag handle suffix) =>
    advance
    return some (← resolve handle suffix)
  | _ => return none

/-- Reads a name and a tag in either order. -/
def marks : Compose (Option (List Char) × Option (List Char)) := do
  match ← name? with
  | some a => return (some a, ← tag?)
  | none =>
    match ← tag? with
    | none => return (none, none)
    | some t => return (← name?, some t)

/-- The tag that leaves the kind to the node. -/
def openTag : List Char := ['!']

/-- The kind of a scalar. -/
def scalarKind (tag : Option (List Char)) (plain : Bool) (t : Text) : Kind :=
  match tag with
  | none => if plain then .ofSpelling t else .text
  | some s => if s = openTag then .ofSpelling t else .ofTag s

/-- The kind of a collection. -/
def collectionKind (tag : Option (List Char)) (kind : Kind) : Kind :=
  match tag with
  | none => kind
  | some s => if s = openTag then kind else .ofTag s

/-- Names a node, unless the name is taken. -/
def define (name : Option (List Char)) (x : Node) : Compose Unit := do
  match name with
  | none => return
  | some a =>
    if ((← get).named.lookup a).isSome then refuse
    modify fun c => { c with named := (a, x) :: c.named }

/-- Lets a name stand for a finished node. -/
def finish (name : Option (List Char)) (x : Node) : Compose Node := do
  if let some a := name then modify fun c => { c with named := (a, x) :: c.named }
  return x

/-! ### Collections -/

/-- Reads a node, unless one of some tokens shows that none is there. -/
def unlessBefore (ends : List Token) (inner : Compose Node) : Compose Node := do
  match ← next? with
  | some t => if ends.contains t then return .absent else inner
  | none => inner

/-- A mapping with the given entries. -/
def mappingOf (kind : Kind) (entries : List (Node × Node)) : Compose Node :=
  match Node.withMerged? entries with
  | some es => return .mapping kind es
  | none => refuse

/-- The value behind a key. -/
def valueOf (ends : List Token) (inner : Compose Node) : Compose Node := do
  if ← take .value then unlessBefore ends inner else return .absent

/-- The items of an indented sequence. -/
def indentedItems (inner : Compose Node) : Nat → Compose (List Node)
  | 0 => refuse
  | n + 1 => do
    if ← take .blockEntry then
      let x ← unlessBefore [.blockEntry, .blockEnd] inner
      return x :: (← indentedItems inner n)
    else
      require .blockEnd
      return []

/-- The items of a sequence without an indentation of its own. -/
def unindentedItems (inner : Compose Node) : Nat → Compose (List Node)
  | 0 => refuse
  | n + 1 => do
    if ← take .blockEntry then
      let x ← unlessBefore [.blockEntry, .key, .value, .blockEnd] inner
      return x :: (← unindentedItems inner n)
    else return []

/-- The entries of a block mapping. -/
def blockEntries (inner : Compose Node) : Nat → Compose (List (Node × Node))
  | 0 => refuse
  | n + 1 => do
    if ← take .key then
      let ends := [.key, .value, .blockEnd]
      let k ← unlessBefore ends inner
      let v ← valueOf ends inner
      return (k, v) :: (← blockEntries inner n)
    else
      require .blockEnd
      return []

/-- The items of a flow sequence; a pair is a mapping with one entry. -/
def flowItems (inner : Compose Node) (first : Bool) : Nat → Compose (List Node)
  | 0 => refuse
  | n + 1 => do
    if ← take .flowSequenceEnd then return []
    if !first then require .flowEntry
    if ← take .key then
      let k ← unlessBefore [.value, .flowEntry, .flowSequenceEnd] inner
      let v ← valueOf [.flowEntry, .flowSequenceEnd] inner
      return (← mappingOf .mapping [(k, v)]) :: (← flowItems inner false n)
    else if ← take .flowSequenceEnd then return []
    else return (← inner) :: (← flowItems inner false n)

/-- The entries of a flow mapping; a node alone is a key. -/
def flowEntries (inner : Compose Node) (first : Bool) : Nat → Compose (List (Node × Node))
  | 0 => refuse
  | n + 1 => do
    if ← take .flowMappingEnd then return []
    if !first then require .flowEntry
    if ← take .key then
      let k ← unlessBefore [.value, .flowEntry, .flowMappingEnd] inner
      let v ← valueOf [.flowEntry, .flowMappingEnd] inner
      return (k, v) :: (← flowEntries inner false n)
    else if ← take .flowMappingEnd then return []
    else return (← inner, .absent) :: (← flowEntries inner false n)

/-! ### Nodes -/

/-- A sequence with the items that a reader finds. -/
def sequence (name tag : Option (List Char)) (items : Compose (List Node)) : Compose Node := do
  let kind := collectionKind tag .list
  define name (.sequence kind [])
  finish name (.sequence kind (← items))

/-- A mapping with the entries that a reader finds. -/
def mapping (name tag : Option (List Char)) (entries : Compose (List (Node × Node))) :
    Compose Node := do
  let kind := collectionKind tag .mapping
  define name (.mapping kind [])
  finish name (← mappingOf kind (← entries))

/-- A scalar. -/
def scalar (name tag : Option (List Char)) (plain : Bool) (t : Text) : Compose Node := do
  let x := .scalar (scalarKind tag plain t) t
  define name x
  return x

/-- What stands behind the marks of a node, the nodes inside read by `inner`. -/
def content (inner : Position → Compose Node) (p : Position) (name tag : Option (List Char)) :
    Compose Node := do
  let n ← bound
  match ← next? with
  | some (.scalar plain t) =>
    advance
    scalar name tag plain t
  | some .flowSequenceStart =>
    advance
    sequence name tag (flowItems (inner .inFlow) true n)
  | some .flowMappingStart =>
    advance
    mapping name tag (flowEntries (inner .inFlow) true n)
  | t =>
    if t = some .blockEntry && p = .inEntry then
      sequence name tag (unindentedItems (inner .inBlock) n)
    else if t = some .blockSequenceStart && p ≠ .inFlow then
      advance
      sequence name tag (indentedItems (inner .inBlock) n)
    else if t = some .blockMappingStart && p ≠ .inFlow then
      advance
      mapping name tag (blockEntries (inner .inEntry) n)
    else if name.isSome || tag.isSome then scalar name tag true []
    else refuse

/-- A node. -/
def node : Nat → Position → Compose Node
  | 0, _ => refuse
  | n + 1, p => do
    match ← next? with
    | some (.reference a) =>
      advance
      match (← get).named.lookup a with
      | some x => return x
      | none => refuse
    | _ =>
      let (name, tag) ← marks
      content (node n) p name tag

/-! ### Documents -/

/-- The handles that need no directive. -/
def standardHandles : List (List Char × List Char) :=
  [(['!'], ['!']), (['!', '!'], standardTags)]

/-- Reads the directives of a document. A handle may be set once, and so may the version, of which
the first number has to be one. -/
def directives (versionFound : Bool) (handles : List (List Char × List Char)) :
    Nat → Compose (List (List Char × List Char))
  | 0 => refuse
  | n + 1 => do
    match ← next? with
    | some (.version major) =>
      if versionFound || major ≠ 1 then refuse
      advance
      directives true handles n
    | some (.handle h stands) =>
      if (handles.lookup h).isSome then refuse
      advance
      directives versionFound (handles ++ [(h, stands)]) n
    | some .remark =>
      advance
      directives versionFound handles n
    | _ => return handles

/-- Whether a token is a directive or begins a document. -/
def isOpening : Token → Bool
  | .version _ | .handle .. | .remark | .documentStart => true
  | _ => false

/-- Reads a document; there is none if there are no tokens. -/
def document : Compose (Option Node) := do
  match ← next? with
  | none => return none
  | some t =>
    if isOpening t then
      let handles ← directives false [] (← bound)
      modify fun c => { c with handles := handles ++ standardHandles }
      require .documentStart
      match ← next? with
      | none => return some .absent
      | some t =>
        if isOpening t || t = .documentEnd then return some .absent
        else node (← bound) .inBlock
    else node (← bound) .inBlock

/-- Requires that nothing follows a document but marks of its end. -/
def nothingElse : Nat → Compose Unit
  | 0 => refuse
  | n + 1 => do
    if ← take .documentEnd then nothingElse n
    else if (← next?).isSome then refuse

/-- Reads the only document. -/
def onlyDocument : Compose (Option Node) := do
  let x ← document
  nothingElse (← bound)
  return x

end Compose

/-- The node of a document, if there is one. -/
def Node.ofTokens? (ts : List Token) : Except Fault (Option Node) := do
  let (x, _) ← (Compose.onlyDocument).run ⟨ts, Compose.standardHandles, []⟩
  return x

end ProviderCatalog.Yaml
