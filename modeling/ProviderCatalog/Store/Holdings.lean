import ProviderCatalog.Store.Basic

/-!
# Holdings

What a store holds about one repository, read through its operations.

## Main definitions

* `Holdings`, `Holdings.toDatum`: the holdings, also as a datum.
* `Store.holdings?`: reading them.
-/

namespace ProviderCatalog

open Schema (Resource Service)
open Changelog (Entry ReleaseRecord)

/-- A resource with its attributes and its source, its identifier and the name of its service; a
resource that cannot be found by its name has none of them. -/
structure Store.HeldResource where
  resource : Resource
  found : Option (Int × Option Text)

/-- What a store holds about one repository. -/
structure Store.Holdings where
  record : RepositoryRecord
  files : List RepositoryFile
  services : List Service
  resources : List Store.HeldResource
  releases : List (ReleaseRecord × List Entry)

namespace Store

/-- A resource as a datum, with its attributes in their brief form. -/
def HeldResource.toDatum (x : HeldResource) : Datum :=
  let base := x.resource.toBriefDatum
  match x.found with
  | none => base
  | some (id, serviceName) => base.extended [("id", .int id), ("service", .ofText? serviceName)]

/-- Holdings as a datum, the files without their contents. -/
def Holdings.toDatum (h : Holdings) : Datum :=
  .ofFields [("record", h.record.toDatum),
    ("files", .list (h.files.map fun f =>
      .list [.text f.path, .text f.name, .text f.type, .int f.size])),
    ("services", .list (h.services.map (·.toDatum))),
    ("resources", .list (h.resources.map (·.toDatum))),
    ("releases", .list (h.releases.map fun (r, es) =>
      r.toDatum.extended [("entries", .list (es.map (·.toDatum)))]))]

/-- A resource of a repository with what belongs to it. -/
def heldResource (s : Store) (repository : Int) (r : Resource) : Except Fault HeldResource := do
  match ← s.resourceId? repository r.name r.kind.toText with
  | none => return ⟨r, none⟩
  | some id =>
    let serviceName ← s.serviceName? id
    let attributes ← s.attributes id
    let source ← s.source? id
    return ⟨{ r with attributes, source }, some (id, serviceName)⟩

/-- What the store holds about the repository with a name. -/
def holdings? (s : Store) (name : Text) : Except Fault (Option Holdings) := do
  match ← s.repository? name with
  | none => return none
  | some record =>
    let id := record.id.getD 0
    let files ← s.files id
    let services ← s.services id
    let resources ← (← s.resources (some id) none).mapM (s.heldResource id)
    let releases ← (← s.releases id).mapM fun r => return (r, ← s.entries (r.id.getD 0))
    return some ⟨record, files, services, resources, releases⟩

end Store

end ProviderCatalog
