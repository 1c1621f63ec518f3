import ProviderCatalog.Yaml.Scalar

/-!
# Reading YAML documents

A document is read in three steps: its layout gives tokens, the tokens give a node, and the node
gives a datum. A key that occurs twice in a mapping keeps its first place and its last value; a set
counts as the list of its members, and a pair as a list of two.

## Main definitions

* `Node.toDatum`: the datum that a node denotes.
* `read`: the datum that a document denotes.
-/

namespace ProviderCatalog.Yaml

/-- Whether a datum can be a key. -/
def isKey : Datum → Bool
  | .list _ | .mapping _ => false
  | _ => true

mutual

/-- The datum that a node denotes. -/
def Node.toDatum : Node → Except Fault Datum
  | .scalar k t => k.value t
  | .sequence k xs =>
    match k with
    | .list => (listOf xs).map .list
    | .pairs => (pairsOf xs).map .list
    | _ => .error .malformed
  | .mapping k es =>
    match k with
    | .mapping => (entriesOf [] es).map .mapping
    | .set => (entriesOf [] es).map fun ds => .list (ds.map (·.1))
    | _ => .error .malformed

/-- The items of a list. -/
def listOf : List Node → Except Fault (List Datum)
  | [] => .ok []
  | x :: xs => do
    let d ← x.toDatum
    return d :: (← listOf xs)

/-- The pairs of a list of mappings with one entry each. -/
def pairsOf : List Node → Except Fault (List Datum)
  | [] => .ok []
  | .mapping _ [(k, v)] :: xs => do
    let a ← k.toDatum
    let b ← v.toDatum
    return .list [a, b] :: (← pairsOf xs)
  | _ :: _ => .error .malformed

/-- The entries of a mapping behind those found. -/
def entriesOf (found : List (Datum × Datum)) :
    List (Node × Node) → Except Fault (List (Datum × Datum))
  | [] => .ok found
  | (k, v) :: es => do
    let key ← k.toDatum
    if !isKey key then throw .malformed
    let value ← v.toDatum
    entriesOf (Datum.setEntry key value found) es

end

/-- Whether a character can occur in a document. -/
def isPrintable (c : Char) : Bool :=
  let n := c.toNat
  n == 0x09 || n == 0x0A || n == 0x0D || (0x20 ≤ n && n ≤ 0x7E) || n == 0x85
    || (0xA0 ≤ n && n ≤ 0xFFFD) || 0x10000 ≤ n

/-- The datum that a document denotes, null if there is none. -/
def read (cs : List Char) : Except Fault Datum := do
  if !cs.all isPrintable then throw .malformed
  match ← Node.ofTokens? (← layout cs) with
  | some x => x.toDatum
  | none => return .null

end ProviderCatalog.Yaml
