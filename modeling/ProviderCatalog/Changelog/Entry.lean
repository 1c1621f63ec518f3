import ProviderCatalog.Changelog.Reader

/-!
# Entries of a release

The bullets of a release are numbered through its sections and keyed by section, version and
number. An entry names the resource it is about, if its text mentions an identifier of the
provider, and a change kind that follows from its section.

## Main definitions

* `slug`: the part of a key that a name makes.
* `changeKind`: the kind of change that a section announces.
* `Entry`, `entries`: the entries of a release.
-/

namespace ProviderCatalog.Changelog

/-- Whether a code point is an ASCII digit or lower-case letter. -/
def isSlugPoint : CodePoint → Bool := CodePoint.satisfies fun c => c.isDigit || c.isLower

/-- A name as a part of a key: in lower case, with hyphens for all but letters and digits. -/
def slug (name : Text) : Text :=
  let t := name.trim.lower.map fun p => if isSlugPoint p then p else .scalar '-'
  let t := Text.dropEnds (· == .scalar '-') t
  if t.isEmpty then "item" else t

/-- The change kinds that sections announce, by the section's name in lower case. -/
def sectionKinds : List (Text × Text) := [
  ("enhancements", "enhancement"), ("improvements", "enhancement"), ("bug fixes", "bugfix"),
  ("bugfixes", "bugfix"), ("bugs", "bugfix"), ("breaking changes", "breaking_change"),
  ("security", "security")]

/-- The kind of change of an entry. Features are told apart by the text of the entry. -/
def changeKind (sectionName text : Text) : Option Text :=
  let name := sectionName.trim.lower
  if name = ("features" : Text) then
    let text := text.lower
    if text.contains "new resource" then some "new_resource"
    else if text.contains "new data source" then some "new_data_source"
    else some "feature"
  else sectionKinds.lookup name

/-- An entry of a release, as it is stored. -/
structure Entry where
  sectionName : Text
  key : Text
  title : Text
  details : Option Text
  resourceName : Option Text
  identifier : Option Text
  kind : Option Text
  /-- The number of the entry in its release. -/
  position : Int
deriving DecidableEq, Repr

/-- The name of an entry in messages. -/
def Entry.recordName : String := "ReleaseEntry"

/-- Reads an entry from a datum. -/
def Entry.check : Datum → Checked Entry :=
  .record fun d => Entry.mk <$> .required d "section" .text
    <*> .required d "entry_key" .nonEmptyText <*> .required d "title" .nonEmptyText
    <*> .optional d "details" .text <*> .optional d "resource_name" .text
    <*> .optional d "identifier" .text <*> .optional d "change_type" .text
    <*> .required d "order_index" (.intAtLeast 0)

/-- An entry as a datum. -/
def Entry.toDatum (e : Entry) : Datum :=
  .ofFields [("section", .text e.sectionName), ("entry_key", .text e.key), ("title", .text e.title),
    ("details", .ofText? e.details), ("resource_name", .ofText? e.resourceName),
    ("identifier", .ofText? e.identifier), ("change_type", .ofText? e.kind),
    ("order_index", .int e.position)]

/-- Whether a code point can stand in an identifier after the provider's name. -/
def isIdentifierPoint : CodePoint → Bool :=
  CodePoint.satisfies fun c => c.isDigit || c.isLower || c == '_'

/-- The first identifier in a text: `stem` followed by as many identifier code points as there are,
at least one. -/
def identifier? (stem : Text) : Text → Option Text
  | [] => none
  | p :: t =>
    let here := p :: t
    let tail := (here.drop stem.length).takeWhile isIdentifierPoint
    if stem.isPrefixOf here && !tail.isEmpty then some (stem ++ tail) else identifier? stem t

/-- The key of the entry at a position. -/
def entryKey (sectionName version : Text) (position : Nat) : Text :=
  slug sectionName ++ "-" ++ slug version ++ "-" ++ Date.padded 3 position

/-- The entry of one bullet text, which a lone surrogate keeps from being one. -/
def entryOf (stem version sectionName title : Text) (position : Nat) : Except Invalid Entry :=
  if !title.isUnicode then
    .error ⟨Entry.recordName, [⟨[.field "title"], .textNotUnicode⟩]⟩
  else
    let identifier := identifier? stem title.lower
    .ok ⟨sectionName, entryKey sectionName version position, title, none, identifier, identifier,
      changeKind sectionName title, position⟩

/-- The bullets of a release that are not blank, each with the name of its section. -/
def bullets (r : Release) : List (Text × Text) :=
  r.sections.flatMap fun s =>
    let name := if s.name.isEmpty then otherSection else s.name
    (s.entries.map Text.trim).filterMap fun t => if t.isEmpty then none else some (name, t)

/-- The entries of bullets that are numbered from `position` on. -/
def entriesFrom (stem version : Text) (position : Nat) :
    List (Text × Text) → Except Invalid (List Entry)
  | [] => .ok []
  | (name, title) :: rest => do
    let e ← entryOf stem version name title position
    let es ← entriesFrom stem version (position + 1) rest
    return e :: es

/-- The entries of a release of the provider with the given resource prefix. -/
def entries (resourcePrefix : Text) (r : Release) : Except Invalid (List Entry) :=
  entriesFrom (resourcePrefix.lower ++ "_") r.version 0 (bullets r)

end ProviderCatalog.Changelog
