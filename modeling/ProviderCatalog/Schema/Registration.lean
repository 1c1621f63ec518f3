import ProviderCatalog.Go.Source
import ProviderCatalog.Schema.Naming

/-!
# Registrations

A registration makes a definition of the provider known under a public name. It is either an entry
of a map literal from names to builder calls, or a structure in the list that a parameterless
function of a fixed name returns. Of several registrations of one name and kind the first counts,
and those in maps come before those in lists.

## Main definitions

* `Registration`, `Registration.check`: registrations, also read from a datum.
* `mapRegistrations`, `listRegistrations`: the two idioms.
* `registrations`: the registrations of sources, each with the source that it stands in.
-/

namespace ProviderCatalog.Schema

open Go (Node Source)

/-- A definition made known under a public name. -/
structure Registration where
  typeName : Text
  /-- The builder function, which a registration by a structure does not have. -/
  builder : Option Text
  kind : ResourceKind
deriving DecidableEq, Repr

namespace Registration

/-- The name of a registration in messages. -/
def recordName : String := "ResourceRegistration"

/-- Reads a registration from a datum. -/
def check : Datum → Checked Registration :=
  .record fun d => Registration.mk <$> .required d "type_name" .nonEmptyText
    <*> .optional d "func_name" .text
    <*> .withDefault d "kind" .resource (.textOneOf ResourceKind.byName)

/-- A registration as a datum. -/
def toDatum (r : Registration) : Datum :=
  .ofFields [("type_name", .text r.typeName), ("func_name", .ofText? r.builder),
    ("kind", .text r.kind.toText)]

/-- The registration made of its parts, whose name must be a text that can be encoded and is not
empty. -/
def make (typeName : Text) (builder : Option Text) (kind : ResourceKind) :
    Except Invalid Registration :=
  (((Checked.nonEmptyText typeName).within (.field "type_name")).map fun n =>
    (⟨n, builder, kind⟩ : Registration)).asRecord recordName

end Registration

/-- A registration with the source that it stands in. -/
abbrev Found := Registration × Source

/-! ### Maps -/

/-- The braces of a map literal whose values are resources. -/
def registrationMap? (n : Node) : Option Node := do
  if n.kind != .compositeLiteral then none
  let t ← n.child? .type
  if t.kind != .mapType then none
  let value := ((t.child? .value).map Node.text).getD []
  if value.endsWith resourceTypeSuffix then n.child? .body else none

/-- The registration that an element of a map is: a name that is a string and not empty, and a call
of a builder. -/
def mapElement? (entry : Node × Node) : Option (Text × Text) :=
  match entry.1.stringValue?, entry.2.callName? with
  | some (p :: t), some (q :: f) => some (p :: t, q :: f)
  | _, _ => none

/-- The entries of all maps of a source, in order. -/
def mapEntries (s : Source) : List (Text × Text) :=
  (s.root.walk.filterMap registrationMap?).flatMap fun b => b.keyedElements.filterMap mapElement?

/-- The registrations in maps. -/
def mapRegistrations (sources : List Source) : Except Invalid (List Found) :=
  (sources.flatMap fun s => (mapEntries s).map (·, s)).mapM fun ((n, f), s) => do
    return (← Registration.make n (some f) (.ofBuilder f), s)

/-! ### Lists -/

/-- The functions that list structures, with the kind of their definitions. -/
def listFunctions : List (Text × ResourceKind) :=
  [("Resources", .resource), ("DataSources", .dataSource)]

/-- The kind of the definitions that a declaration lists: it has a fixed name, no parameters and a
list of resources as its result. -/
def listKind? (declaration : Node) : Option ResourceKind := do
  let kind ← listFunctions.lookup declaration.declaredName
  let result := ((declaration.child? .result).map Node.text).getD []
  if declaration.parameterCount == 0 && result.startsWith "[]" &&
      result.endsWith resourceTypeSuffix then some kind else none

/-- The public name of an element of a list of structures, if it is one. -/
def elementName? (providerPrefix : Text) (element : Node) : Option Text := do
  let t ← if element.kind == .compositeLiteral then element.child? .type else some element
  if t.kind == .identifier || t.kind == .typeIdentifier then
    let n := resourceName t.text providerPrefix
    if n.isEmpty then none else some n
  else none

/-- The public names in the lists that a declaration returns. -/
def listedNames (providerPrefix : Text) (declaration : Node) : List Text :=
  (declaration.bodyStatements.filter (·.kind == .returnStatement)).flatMap fun s =>
    match s.returnValues.head?.bind Node.literalBody? with
    | some b => b.listElements.filterMap (elementName? providerPrefix)
    | none => []

/-- The names that a source lists, with their kinds, functions before methods. -/
def listEntries (providerPrefix : Text) (s : Source) : List (Text × ResourceKind) :=
  (s.functions.map (·.2) ++ s.methods).flatMap fun d =>
    match listKind? d with
    | some kind => (listedNames providerPrefix d).map (·, kind)
    | none => []

/-- The registrations in lists. -/
def listRegistrations (providerPrefix : Text) (sources : List Source) :
    Except Invalid (List Found) :=
  (sources.flatMap fun s => (listEntries providerPrefix s).map (·, s)).mapM fun ((n, k), s) => do
    return (← Registration.make n none k, s)

/-! ### All registrations -/

/-- The name and kind under which a registration counts once. -/
def Registration.key (r : Registration) : Text × ResourceKind := (r.typeName, r.kind)

/-- The registrations whose keys are neither among those seen nor those of earlier ones. -/
def firstOfKeys (seen : List (Text × ResourceKind)) : List Found → List Found
  | [] => []
  | f :: rest =>
    if seen.contains f.1.key then firstOfKeys seen rest
    else f :: firstOfKeys (f.1.key :: seen) rest

/-- The registrations of sources, each with the source that it stands in. -/
def registrations (providerPrefix : Text) (sources : List Source) : Except Invalid (List Found) := do
  let inMaps ← mapRegistrations sources
  let inLists ← listRegistrations providerPrefix sources
  return firstOfKeys [] (inMaps ++ inLists)

end ProviderCatalog.Schema
