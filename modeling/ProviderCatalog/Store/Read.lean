import ProviderCatalog.Store.Tables
import ProviderCatalog.Search.Question

/-!
# Reading from the tables

Files, services and resources are read in the order of their names, attributes and releases in the
order in which they were stored first, entries by their positions. Texts are ordered by their code
points.

## Main definitions

* `Tables.repository?`, `Tables.repositoryById?`: records of repositories.
* `Tables.filesOf`, `Tables.file?`, `Tables.search`: files.
* `Tables.servicesOf`, `Tables.resourcesOf`, `Tables.resourceId?`, `Tables.attributesOf`,
  `Tables.source?`, `Tables.serviceName?`: what the sources of a repository say.
* `Tables.releasesOf`, `Tables.entriesOf`: releases.
-/

namespace ProviderCatalog.Store

open Schema (Attribute Resource Service SnippetBundle)
open Changelog (Entry ReleaseRecord)

/-- Whether a text may stand before another. -/
def precedes (a b : Text) : Bool := !Text.lt b a

/-- The type of a file whose type is empty. -/
def unnamedType : Text := "other"

/-- A file as it is read back. -/
def readFile (f : RepositoryFile) : RepositoryFile :=
  { f with type := if f.type.isEmpty then unnamedType else f.type }

/-- A record as it is read back. -/
def readRecord (r : Row RepositoryRecord) : RepositoryRecord := { r.value with id := some r.id }

namespace Tables

/-- The record of the repository with a name. -/
def repository? (t : Tables) (name : Text) : Except Fault (Option RepositoryRecord) := do
  Param.bind [.text name]
  return (t.repositories.find? (·.name == name)).map readRecord

/-- The record with a number. -/
def repositoryById? (t : Tables) (id : Int) : Except Fault (Option RepositoryRecord) := do
  Param.bind [.number id]
  return (t.repositories.get? id).map fun r => readRecord ⟨id, r⟩

/-- The files of a repository by path. -/
def filesOf (t : Tables) (repository : Int) : Except Fault (List RepositoryFile) := do
  Param.bind [.number repository]
  let fs := (t.files.select (·.repositoryId == repository)).map (·.value)
  return (fs.mergeSort fun a b => precedes a.path b.path).map readFile

/-- The file at a path of the repository with a name. -/
def file? (t : Tables) (name path : Text) : Except Fault (Option RepositoryFile) := do
  Param.bind [.text name, .text path]
  match t.repositories.find? (·.name == name) with
  | none => return none
  | some r =>
    return (t.files.find? fun f => f.repositoryId == r.id && f.path == path).map
      fun f => readFile f.value

/-- The services of a repository by name. -/
def servicesOf (t : Tables) (repository : Int) : Except Fault (List Service) := do
  Param.bind [.number repository]
  let ss := (t.services.select (·.owner == repository)).map (·.value.value)
  return (ss.mergeSort fun a b => precedes a.name b.name).map (·.toService)

/-- Whether a resource may stand before another: by name, then by the name of the kind. -/
def resourcePrecedes (a b : StoredResource) : Bool :=
  Text.lt a.name b.name || (a.name == b.name && precedes a.kind.toText b.kind.toText)

/-- The resources of a repository and of a kind, or of all repositories and of all kinds. -/
def resourcesOf (t : Tables) (repository : Option Int) (kind : Option Text) :
    Except Fault (List Resource) := do
  let kind := kind.filter (!·.isEmpty)
  Param.bind ((repository.map Param.number).toList ++ (kind.map Param.text).toList)
  let rs := t.resources.values.filter fun p =>
    repository.all (p.owner == ·) && kind.all (p.value.kind.toText == ·)
  return ((rs.map (·.value)).mergeSort resourcePrecedes).map (·.toResource)

/-- The number of the resource with a name and a kind. -/
def resourceId? (t : Tables) (repository : Int) (name kind : Text) :
    Except Fault (Option Int) := do
  Param.bind [.number repository, .text name, .text kind]
  return (t.resources.find? fun p =>
    p.owner == repository && p.value.name == name && p.value.kind.toText == kind).map (·.id)

/-- The attributes of a resource. -/
def attributesOf (t : Tables) (resource : Int) : Except Fault (List Attribute) := do
  Param.bind [.number resource]
  return (t.attributes.select (·.owner == resource)).map (·.value.value)

/-- The source of a resource. -/
def source? (t : Tables) (resource : Int) : Except Fault (Option SnippetBundle) := do
  Param.bind [.number resource]
  return (t.sources.find? (·.owner == resource)).map (·.value.value)

/-- The name of the service that a resource is linked to. -/
def serviceName? (t : Tables) (resource : Int) : Except Fault (Option Text) := do
  Param.bind [.number resource]
  return do
    let r ← t.resources.get? resource
    let s ← t.services.get? (← r.value.service)
    return s.value.name

/-- The releases of a repository. -/
def releasesOf (t : Tables) (repository : Int) : Except Fault (List ReleaseRecord) := do
  Param.bind [.number repository]
  return (t.releases.select (·.owner == repository)).map fun r =>
    { r.value.value with id := some r.id }

/-- The entries of a release by position. -/
def entriesOf (t : Tables) (release : Int) : Except Fault (List Entry) := do
  Param.bind [.number release]
  let es := (t.entries.select (·.owner == release)).map (·.value.value)
  return es.mergeSort fun a b => a.position ≤ b.position

/-- The files in which the words of a query stand next to each other, the best first, at most
`limit` of them unless the limit is negative. -/
def search (t : Tables) (query : Text) (limit : Int) : Except Fault (List RepositoryFile) := do
  let question := Search.quoted query
  Param.bind [.text question, .number limit]
  match Search.phrase? question with
  | none => throw .openQuestion
  | some [] => return []
  | some phrase =>
    let hits := ((Search.ranked phrase t.files.index).filterMap t.files.get?).map readFile
    return if limit < 0 then hits else hits.take limit.toNat

end Tables

end ProviderCatalog.Store
