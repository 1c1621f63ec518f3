import ProviderCatalog.Store.FileTable
import ProviderCatalog.Store.Fault
import ProviderCatalog.Repository.Record
import ProviderCatalog.Schema.Resource
import ProviderCatalog.Schema.Service
import ProviderCatalog.Changelog.Chain
import ProviderCatalog.Changelog.Entry

/-!
# The tables of the catalog

Repositories own files, services, resources and releases; resources own attributes and at most one
source; releases own entries. A resource may also be linked to a service. A row that is owned refers
to its owner by number.

## Main definitions

* `Part`, `StoredService`, `StoredResource`: the values of rows.
* `Tables`: the eight tables.
* `Param.ofFile` and the like: the values of a row in the order of its columns.
-/

namespace ProviderCatalog

open Schema (Attribute Resource ResourceKind Service SnippetBundle)
open Changelog (Entry ReleaseRecord)

namespace Store

/-- A value that belongs to a row of another table. -/
structure Part (α : Type) where
  /-- The number of the row that the value belongs to. -/
  owner : Int
  value : α
deriving DecidableEq, Repr

/-- A service as it is stored. -/
structure StoredService where
  name : Text
  filePath : Text
  /-- The categories, joined by commas. -/
  categories : Text
  label : Option Text
deriving DecidableEq, Repr

/-- The code point between categories. -/
def categorySeparator : CodePoint := .scalar ','

/-- A service on its way into the table. -/
def StoredService.ofService (s : Service) : StoredService :=
  ⟨s.name, s.filePath, Text.join [categorySeparator] s.categories, s.label⟩

/-- A service as it is read back. -/
def StoredService.toService (s : StoredService) : Service where
  name := s.name
  filePath := s.filePath
  directory := none
  categories := (Text.splitOn categorySeparator s.categories).filter fun c => !c.isEmpty
  label := s.label

/-- A resource as it is stored: without its attributes and its source, which have tables of their
own, and with the number of its service. -/
structure StoredResource where
  service : Option Int
  name : Text
  kind : ResourceKind
  displayName : Option Text
  filePath : Option Text
  description : Option Text
  deprecation : Option Text
  breakingChanges : Option Text
  apiVersion : Option Text
deriving DecidableEq, Repr

/-- A resource on its way into the table. -/
def StoredResource.ofResource (r : Resource) (service : Option Int) : StoredResource :=
  ⟨service, r.name, r.kind, r.displayName, r.filePath, r.description, r.deprecation,
    r.breakingChanges, r.apiVersion⟩

/-- A resource as it is read back. -/
def StoredResource.toResource (r : StoredResource) : Resource where
  name := r.name
  kind := r.kind
  displayName := r.displayName
  filePath := r.filePath
  description := r.description
  deprecation := r.deprecation
  breakingChanges := r.breakingChanges
  apiVersion := r.apiVersion
  attributes := []
  source := none
  serviceDirectory := none

/-- The tables of the catalog. -/
structure Tables where
  repositories : Table RepositoryRecord
  files : FileTable
  services : Table (Part StoredService)
  resources : Table (Part StoredResource)
  attributes : Table (Part Attribute)
  sources : Table (Part SnippetBundle)
  releases : Table (Part ReleaseRecord)
  entries : Table (Part Entry)
deriving DecidableEq, Repr

/-- Tables without rows. -/
def Tables.empty : Tables :=
  ⟨.empty, .empty, .empty, .empty, .empty, .empty, .empty, .empty⟩

/-! ### Values in the order of the columns -/

namespace Param

/-- The columns of a record of a repository. -/
def ofRepository (r : RepositoryRecord) : List Param :=
  [text r.name, text r.fullName, ofText? r.description, text r.pageUrl, ofText? r.lastUpdated,
    ofText? r.readme]

/-- The columns of a file. -/
def ofFile (f : RepositoryFile) : List Param :=
  [number f.repositoryId, text f.name, text f.path, text f.type, text f.content, number f.size]

/-- The columns of a service. -/
def ofService (p : Part StoredService) : List Param :=
  [number p.owner, text p.value.name, text p.value.filePath, text p.value.categories,
    ofText? p.value.label]

/-- The columns of a resource. -/
def ofResource (p : Part StoredResource) : List Param :=
  let r := p.value
  [number p.owner, ofNumber? r.service, text r.name, ofText? r.displayName, text r.kind.toText,
    ofText? r.filePath, ofText? r.description, ofText? r.deprecation, ofText? r.breakingChanges,
    ofText? r.apiVersion]

/-- The columns of an attribute that can fail to fit; truth values always do fit. -/
def ofAttribute (p : Part Attribute) : List Param :=
  let a := p.value
  [number p.owner, text a.name, ofText? a.type, ofText? a.deprecated, ofText? a.description,
    ofText? a.conflictsWith, ofText? a.exactlyOneOf, ofText? a.atLeastOneOf,
    ofText? a.requiredWith, ofNumber? a.maxItems, ofNumber? a.minItems, ofText? a.elementType,
    ofText? a.elementSummary, ofText? a.validation, ofText? a.diffSuppress,
    ofText? a.defaultValue, ofText? a.stateFunction, ofText? a.setFunction]

/-- The columns of a source. -/
def ofSource (p : Part SnippetBundle) : List Param :=
  let s := p.value
  [number p.owner, text s.functionName, text s.filePath, ofText? s.function, ofText? s.schema,
    ofText? s.customizeDiff, ofText? s.timeouts, ofText? s.stateUpgraders, ofText? s.importer]

/-- The columns of a release. -/
def ofRelease (p : Part ReleaseRecord) : List Param :=
  let r := p.value
  [number p.owner, text r.version, text r.tag, ofText? r.previousVersion, ofText? r.previousTag,
    ofText? r.commit, ofText? r.previousCommit, ofText? r.date, ofText? r.comparisonUrl]

/-- The columns of an entry. -/
def ofEntry (p : Part Entry) : List Param :=
  let e := p.value
  [number p.owner, text e.sectionName, text e.key, text e.title, ofText? e.details,
    ofText? e.resourceName, ofText? e.identifier, ofText? e.kind, number e.position]

end Param

end Store

end ProviderCatalog
