import ProviderCatalog.Store.Write
import ProviderCatalog.Store.Read

/-!
# The store

A store has tables once it is initialised, and loses them when it is closed. Some of its operations
may be out of order, and then fail without doing anything. An operation that fails leaves the store
as it was.

## Main definitions

* `Operation`: the operations of a store, by name.
* `Store`, `Store.blank`, `Store.prepare`, `Store.close`: stores.
* `Store.insertRepository` and the operations after it: the operations on the tables.
-/

namespace ProviderCatalog

open Schema (Attribute Resource Service SnippetBundle)
open Changelog (Entry ReleaseRecord)

/-- The operations of a store. -/
inductive Store.Operation where
  | prepare
  | close
  | insertRepository
  | repository
  | repositoryById
  | deleteRepository
  | clearRepository
  | insertFile
  | files
  | file
  | insertService
  | insertResource
  | insertAttribute
  | insertSource
  | source
  | resources
  | resourceId
  | attributes
  | services
  | serviceName
  | insertRelease
  | replaceEntries
  | releases
  | entries
  | search
deriving DecidableEq, Repr

/-- A store. -/
structure Store where
  /-- The tables, once there are any. -/
  tables : Option Store.Tables
  /-- The operations that are out of order. -/
  outOfOrder : List Store.Operation
deriving DecidableEq, Repr

namespace Store

/-- A store without tables. -/
def blank : Store := ⟨none, []⟩

/-- A store with tables without rows. -/
def ready : Store := ⟨some .empty, []⟩

variable {α : Type}

/-- Requires an operation to be in order. -/
def require (s : Store) (o : Operation) : Except Fault Unit :=
  if s.outOfOrder.contains o then .error (.refused .outOfOrder) else .ok ()

/-- Reads from the tables, the first of which that is read has the given name. -/
def read (s : Store) (o : Operation) (table : String) (f : Tables → Except Fault α) :
    Except Fault α := do
  s.require o
  match s.tables with
  | none => throw (.unreadable table)
  | some t => f t

/-- Writes to the tables, the first of which that is written to has the given name. -/
def write (s : Store) (o : Operation) (table : String) (f : Tables → Except Fault (Tables × α)) :
    Except Fault (Store × α) := do
  s.require o
  match s.tables with
  | none => throw (.refused (.noTable table))
  | some t =>
    let (t, a) ← f t
    return ({ s with tables := some t }, a)

/-- Writes to the tables without an answer. -/
def update (s : Store) (o : Operation) (table : String) (f : Tables → Except Fault Tables) :
    Except Fault Store := do
  return (← s.write o table fun t => return ((← f t), ())).1

/-- Makes sure that the store has tables. -/
def prepare (s : Store) : Except Fault Store := do
  s.require .prepare
  return { s with tables := some (s.tables.getD .empty) }

/-- Closes the store, which drops its tables. -/
def close (s : Store) : Except Fault Store := do
  s.require .close
  return { s with tables := none }

/-! ### Repositories -/

/-- Stores a record under its name and tells its number. -/
def insertRepository (s : Store) (r : RepositoryRecord) : Except Fault (Store × Int) :=
  s.write .insertRepository "repositories" (·.putRepository r)

/-- The record of the repository with a name. -/
def repository? (s : Store) (name : Text) : Except Fault (Option RepositoryRecord) :=
  s.read .repository "repositories" (·.repository? name)

/-- The record with a number. -/
def repositoryById? (s : Store) (id : Int) : Except Fault (Option RepositoryRecord) :=
  s.read .repositoryById "repositories" (·.repositoryById? id)

/-- Removes a record and everything that belongs to it. -/
def deleteRepository (s : Store) (id : Int) : Except Fault Store :=
  s.update .deleteRepository "repositories" (·.deleteRepository id)

/-- Removes everything that belongs to a record. -/
def clearRepository (s : Store) (id : Int) : Except Fault Store :=
  s.update .clearRepository "provider_resource_attributes" (·.clearRepository id)

/-! ### Files -/

/-- Stores a file under its repository and path. -/
def insertFile (s : Store) (f : RepositoryFile) : Except Fault Store :=
  s.update .insertFile "repository_files" (·.putFile f)

/-- The files of a repository. -/
def files (s : Store) (repository : Int) : Except Fault (List RepositoryFile) :=
  s.read .files "repository_files" (·.filesOf repository)

/-- The file at a path of the repository with a name. -/
def file? (s : Store) (name path : Text) : Except Fault (Option RepositoryFile) :=
  s.read .file "repository_files" (·.file? name path)

/-- The files in which the words of a query stand next to each other. -/
def search (s : Store) (query : Text) (limit : Int) : Except Fault (List RepositoryFile) :=
  s.read .search "repository_files_fts" (·.search query limit)

/-! ### Services and resources -/

/-- Stores a service under its repository and name and tells its number. -/
def insertService (s : Store) (repository : Int) (x : Service) : Except Fault (Store × Int) :=
  s.write .insertService "provider_services" (·.putService repository x)

/-- The services of a repository. -/
def services (s : Store) (repository : Int) : Except Fault (List Service) :=
  s.read .services "provider_services" (·.servicesOf repository)

/-- Stores a resource under its repository, name and kind and tells its number. -/
def insertResource (s : Store) (repository : Int) (r : Resource) (service : Option Int) :
    Except Fault (Store × Int) :=
  s.write .insertResource "provider_resources" (·.putResource repository r service)

/-- The resources of a repository and of a kind. -/
def resources (s : Store) (repository : Option Int) (kind : Option Text) :
    Except Fault (List Resource) :=
  s.read .resources "provider_resources" (·.resourcesOf repository kind)

/-- The number of the resource with a name and a kind. -/
def resourceId? (s : Store) (repository : Int) (name kind : Text) : Except Fault (Option Int) :=
  s.read .resourceId "provider_resources" (·.resourceId? repository name kind)

/-- The name of the service that a resource is linked to. -/
def serviceName? (s : Store) (resource : Int) : Except Fault (Option Text) :=
  s.read .serviceName "provider_resources" (·.serviceName? resource)

/-- Stores an attribute under its resource and name. -/
def insertAttribute (s : Store) (resource : Int) (a : Attribute) : Except Fault Store :=
  s.update .insertAttribute "provider_resource_attributes" (·.putAttribute resource a)

/-- The attributes of a resource. -/
def attributes (s : Store) (resource : Int) : Except Fault (List Attribute) :=
  s.read .attributes "provider_resource_attributes" (·.attributesOf resource)

/-- Stores the source of a resource. -/
def insertSource (s : Store) (resource : Int) (x : SnippetBundle) : Except Fault Store :=
  s.update .insertSource "provider_resource_sources" (·.putSource resource x)

/-- The source of a resource. -/
def source? (s : Store) (resource : Int) : Except Fault (Option SnippetBundle) :=
  s.read .source "provider_resource_sources" (·.source? resource)

/-! ### Releases -/

/-- Stores a release under its repository and version and tells its number. -/
def insertRelease (s : Store) (repository : Int) (r : ReleaseRecord) :
    Except Fault (Store × Int) :=
  s.write .insertRelease "provider_releases" (·.putRelease repository r)

/-- The releases of a repository. -/
def releases (s : Store) (repository : Int) : Except Fault (List ReleaseRecord) :=
  s.read .releases "provider_releases" (·.releasesOf repository)

/-- Stores the entries of a release in the place of those that it has. -/
def replaceEntries (s : Store) (release : Int) (es : List Entry) : Except Fault Store :=
  s.update .replaceEntries "provider_release_entries" (·.replaceEntries release es)

/-- The entries of a release. -/
def entries (s : Store) (release : Int) : Except Fault (List Entry) :=
  s.read .entries "provider_release_entries" (·.entriesOf release)

end Store

end ProviderCatalog
