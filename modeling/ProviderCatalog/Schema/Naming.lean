import ProviderCatalog.Text.Case
import ProviderCatalog.Text.Search

/-!
# Names and kinds of provider definitions

A definition is a resource, a data source, an action, a list or an ephemeral resource. The kind is
told from the name of its builder function, its public name is made from the name of the structure
that implements it, and its display name is made from the public name.

## Main definitions

* `ResourceKind`, `ResourceKind.ofBuilder`: the kinds.
* `resourceName`: the public name of a structure.
* `displayName`: a public name for readers.
* `serviceDirectory?`: the directory of the service that a path belongs to.
-/

namespace ProviderCatalog.Schema

/-- The kinds of provider definitions. -/
inductive ResourceKind where
  | resource
  | dataSource
  | action
  | list
  | ephemeral
deriving DecidableEq, Repr

namespace ResourceKind

/-- The name of a kind. -/
def toText : ResourceKind → Text
  | resource => "resource"
  | dataSource => "data_source"
  | action => "action"
  | list => "list"
  | ephemeral => "ephemeral"

/-- The kinds by their names. -/
def byName : List (Text × ResourceKind) :=
  [resource, dataSource, action, list, ephemeral].map fun k => (k.toText, k)

/-- The kind that the name of a builder function suggests. -/
def ofBuilder (name : Text) : ResourceKind :=
  let name := name.lower
  if name.contains "action" then action
  else if name.contains "list" && !name.contains "datasource" then list
  else if name.contains "ephemeral" then ephemeral
  else if name.contains "datasource" then dataSource
  else resource

end ResourceKind

/-- The end of the type names of resources. -/
def resourceTypeSuffix : Text := ".Resource"

/-- The ends of structure names that public names drop, in the order in which they are dropped. -/
def structSuffixes : List Text := ["Resource", "DataSource", "Action", "List", "Ephemeral"]

/-- A text with an underscore before each capital. -/
def breakAtCapitals (t : Text) : Text :=
  t.flatMap fun p => if p.isCapital then [.scalar '_', p] else [p]

/-- A name in capital letters and small ones as words with underscores between them. -/
def snakeCase : Text → Text
  | [] => []
  | p :: t => Text.lower (p :: breakAtCapitals t)

/-- The public name of a structure, empty if its name is made of the dropped ends alone. -/
def resourceName (structName providerPrefix : Text) : Text :=
  let stem := structSuffixes.foldl Text.dropSuffix structName
  if stem.isEmpty then [] else providerPrefix ++ "_" ++ snakeCase stem

/-- A word with its first letter in upper case and the others in lower case. -/
def capitalize (word : Text) : Text := Text.upper (word.take 1) ++ Text.lower (word.drop 1)

/-- A public name for readers: without the provider, in capitalized words. -/
def displayName (name providerPrefix : Text) : Text :=
  let words := (name.dropPrefix (providerPrefix ++ "_")).splitOn (.scalar '_')
  Text.join " " (words.map capitalize)

/-- The segment after the first segment that is `services`, if it is there and not empty. -/
def segmentAfterServices : List Text → Option Text
  | a :: b :: rest =>
    if a = ("services" : Text) then (if b.isEmpty then none else some b)
    else segmentAfterServices (b :: rest)
  | _ => none

/-- The directory of the service that a path belongs to. -/
def serviceDirectory? (path : Text) : Option Text :=
  segmentAfterServices (path.splitOn (.scalar '/'))

end ProviderCatalog.Schema
