import ProviderCatalog.Store.Tables

/-!
# Writing to the tables

Every write checks that its values fit into their columns and that the rows they refer to are
there, and leaves the tables as they were otherwise. A write under a key that is there already
replaces the row and keeps its number. Rows whose owner goes, go with it.

A write of several statements is a transaction of a connection: the statements are carried out one
after the other, and all of them count or none does.

## Main definitions

* `Tables.putRepository`, `Tables.deleteRepository`, `Tables.clearRepository`: repositories.
* `Tables.putFile`, `Tables.putService`, `Tables.putResource`, `Tables.putAttribute`,
  `Tables.putSource`, `Tables.putRelease`: parts of repositories, resources and releases.
* `Tables.replaceEntries`: the entries of a release, all at once.
* `Tables.eraseRecords` and the like: rows that go with what belongs to them.
* `Connection`, `Connection.transact`: statements of which all count or none.
* `replacement`: the statements that replace the entries of a release.
-/

namespace ProviderCatalog.Store

open Schema (Attribute Resource Service SnippetBundle)
open Changelog (Entry ReleaseRecord)

/-- Requires the row with a number to be there. -/
def Table.require {α : Type} (t : Table α) (id : Int) : Except Fault Unit :=
  if t.has id then .ok () else .error (.refused .noParent)

namespace Tables

/-- Stores a record under its name. A readme text that is there already stays if the new record has
none. -/
def putRepository (t : Tables) (r : RepositoryRecord) : Except Fault (Tables × Int) := do
  Param.bind (Param.ofRepository r)
  let new : RepositoryRecord := { r with id := none }
  let (table, id) := t.repositories.putMerging (·.name)
    (fun old => { new with readme := new.readme <|> old.readme }) new
  return ({ t with repositories := table }, id)

/-- Stores a file under its repository and path. -/
def putFile (t : Tables) (f : RepositoryFile) : Except Fault Tables := do
  Param.bind (Param.ofFile f)
  t.repositories.require f.repositoryId
  return { t with files := t.files.store f }

/-- Stores a service under its repository and name. -/
def putService (t : Tables) (repository : Int) (s : Service) : Except Fault (Tables × Int) := do
  let row : Part StoredService := ⟨repository, .ofService s⟩
  Param.bind (Param.ofService row)
  t.repositories.require repository
  let (table, id) := t.services.put (fun p => (p.owner, p.value.name)) row
  return ({ t with services := table }, id)

/-- Stores a resource under its repository, name and kind, linked to a service. -/
def putResource (t : Tables) (repository : Int) (r : Resource) (service : Option Int) :
    Except Fault (Tables × Int) := do
  let row : Part StoredResource := ⟨repository, .ofResource r service⟩
  Param.bind (Param.ofResource row)
  t.repositories.require repository
  match service with
  | none => pure ()
  | some id => t.services.require id
  let (table, id) := t.resources.put (fun p => (p.owner, p.value.name, p.value.kind)) row
  return ({ t with resources := table }, id)

/-- Stores an attribute under its resource and name. -/
def putAttribute (t : Tables) (resource : Int) (a : Attribute) : Except Fault Tables := do
  let row : Part Attribute := ⟨resource, a⟩
  Param.bind (Param.ofAttribute row)
  t.resources.require resource
  return { t with attributes := (t.attributes.put (fun p => (p.owner, p.value.name)) row).1 }

/-- Stores the source of a resource. -/
def putSource (t : Tables) (resource : Int) (s : SnippetBundle) : Except Fault Tables := do
  let row : Part SnippetBundle := ⟨resource, s⟩
  Param.bind (Param.ofSource row)
  t.resources.require resource
  return { t with sources := (t.sources.put (·.owner) row).1 }

/-- Stores a release under its repository and version. -/
def putRelease (t : Tables) (repository : Int) (r : ReleaseRecord) :
    Except Fault (Tables × Int) := do
  let row : Part ReleaseRecord := ⟨repository, { r with id := none }⟩
  Param.bind (Param.ofRelease row)
  t.repositories.require repository
  let (table, id) := t.releases.put (fun p => (p.owner, p.value.version)) row
  return ({ t with releases := table }, id)

/-- Stores one more entry of a release, whose key has to be new. -/
def addEntry (t : Tables) (release : Int) (e : Entry) : Except Fault Tables := do
  let row : Part Entry := ⟨release, e⟩
  Param.bind (Param.ofEntry row)
  if t.entries.values.any fun p => p.owner == release && p.value.key == e.key then
    throw (.refused .duplicateEntry)
  t.releases.require release
  return { t with entries := t.entries.append row }

/-- Stores the entries of a release in the place of those that it has. -/
def replaceEntries (t : Tables) (release : Int) (es : List Entry) : Except Fault Tables := do
  Param.bind [.number release]
  let cleared := { t with entries := t.entries.erase (·.value.owner == release) }
  es.foldlM (fun t e => t.addEntry release e) cleared

/-! ### Removal -/

/-- The tables without some of the files. -/
def eraseFiles (t : Tables) (p : Row RepositoryFile → Bool) : Tables :=
  { t with files := t.files.remove p }

/-- A resource without its link, if the link leads to a service that goes. -/
def unlinked (gone : Int → Bool) (r : Part StoredResource) : Part StoredResource :=
  { r with value := { r.value with service := r.value.service.filter (!gone ·) } }

/-- The tables without some of the services, and without the links that lead to them. -/
def eraseServices (t : Tables) (p : Row (Part StoredService) → Bool) : Tables :=
  { t with
    services := t.services.erase p
    resources := t.resources.change (unlinked (t.services.meets p)) }

/-- The tables without some of the resources, and without their attributes and sources. -/
def eraseResources (t : Tables) (p : Row (Part StoredResource) → Bool) : Tables :=
  { t with
    resources := t.resources.erase p
    attributes := t.attributes.erase (t.resources.meets p ·.value.owner)
    sources := t.sources.erase (t.resources.meets p ·.value.owner) }

/-- The tables without some of the releases, and without their entries. -/
def eraseReleases (t : Tables) (p : Row (Part ReleaseRecord) → Bool) : Tables :=
  { t with
    releases := t.releases.erase p
    entries := t.entries.erase (t.releases.meets p ·.value.owner) }

/-- The tables without some of the records, and without everything that belongs to them. -/
def eraseRecords (t : Tables) (p : Row RepositoryRecord → Bool) : Tables :=
  let gone := t.repositories.meets p
  { t with repositories := t.repositories.erase p }
    |>.eraseFiles (gone ·.value.repositoryId)
    |>.eraseServices (gone ·.value.owner)
    |>.eraseResources (gone ·.value.owner)
    |>.eraseReleases (gone ·.value.owner)

/-- Removes a record and everything that belongs to it. -/
def deleteRepository (t : Tables) (id : Int) : Except Fault Tables := do
  Param.bind [.number id]
  return t.eraseRecords (·.id == id)

/-- The tables without the attributes and the sources of the resources of a repository. -/
def eraseResourceParts (t : Tables) (id : Int) : Tables :=
  let owned := t.resources.meets (·.value.owner == id)
  { t with
    attributes := t.attributes.erase (owned ·.value.owner)
    sources := t.sources.erase (owned ·.value.owner) }

/-- The tables without the entries of the releases of a repository. -/
def eraseReleaseParts (t : Tables) (id : Int) : Tables :=
  { t with
    entries := t.entries.erase (t.releases.meets (·.value.owner == id) ·.value.owner) }

/-- Removes everything that belongs to a record, but not the record, and builds the index anew. -/
def clearRepository (t : Tables) (id : Int) : Except Fault Tables := do
  Param.bind [.number id]
  let t := t.eraseResourceParts id
    |>.eraseResources (·.value.owner == id)
    |>.eraseReleaseParts id
    |>.eraseReleases (·.value.owner == id)
    |>.eraseServices (·.value.owner == id)
    |>.eraseFiles (·.value.repositoryId == id)
  return { t with files := .ofTable t.files.toTable }

end Tables

/-! ### Transactions -/

/-- The tables of a connection: those that were committed last, and what the statements since then
have made of them, which is what is read. -/
structure Connection where
  committed : Tables
  current : Tables

namespace Connection

/-- A statement, which fails or changes the tables. -/
abbrev Statement := Tables → Except Fault Tables

/-- A connection without a transaction. -/
def idle (t : Tables) : Connection := ⟨t, t⟩

/-- Carries out statements up to the first that fails; what was done before it stays. -/
def run (c : Connection) : List Statement → Connection × Option Fault
  | [] => (c, none)
  | statement :: rest =>
    match statement c.current with
    | .ok t => run { c with current := t } rest
    | .error f => (c, some f)

/-- Carries out statements as a transaction, which is committed if all of them succeed and rolled
back if one fails. -/
def transact (c : Connection) (statements : List Statement) : Connection × Option Fault :=
  match c.run statements with
  | (c', none) => (idle c'.current, none)
  | (c', some f) => (idle c'.committed, some f)

end Connection

/-- The statements that replace the entries of a release: the one that removes those that are there,
and one for each entry that is added. -/
def replacement (release : Int) (es : List Entry) : List Connection.Statement :=
  (fun t => do
    Param.bind [.number release]
    return { t with entries := t.entries.erase (·.value.owner == release) }) ::
    es.map fun e t => t.addEntry release e

end ProviderCatalog.Store
