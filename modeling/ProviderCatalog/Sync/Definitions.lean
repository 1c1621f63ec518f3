import ProviderCatalog.Sync.State

/-!
# Storing what the sources of a repository say

The services and resources that the stored sources of a repository describe are stored with it. A
row that the store refuses is passed over with a warning, and so are the parts of a resource that it
refuses.

## Main definitions

* `indexServices`: the services, with the directories by which resources are linked to them.
* `indexResource`, `indexResources`: resources with their attributes and sources.
* `indexDefinitions`: all of them.
-/

namespace ProviderCatalog.Sync

open Schema (Attribute Resource Service)

/-- The numbers of services by directory, the last one stored first. -/
abbrev ServiceLinks := List (Text × Int)

/-- Stores services after others with the given links. -/
def indexServices (repository : Int) (links : ServiceLinks) : List Service → Step ServiceLinks
  | [] => return links
  | s :: rest => do
    let id? ← orWarn ("Failed to persist service " ++ s.name)
      (writing (·.insertService repository s))
    match id?, s.directory with
    | some id, some (p :: t) => indexServices repository ((p :: t, id) :: links) rest
    | _, _ => indexServices repository links rest

/-- Stores the attributes of a resource. -/
def indexAttributes (id : Int) (resource : Text) : List Attribute → Step Unit
  | [] => return ()
  | a :: rest => do
    let _ ← orWarn (("Failed to persist attribute " : Text) ++ a.name ++ " on " ++ resource)
      (updating (·.insertAttribute id a))
    indexAttributes id resource rest

/-- Stores a resource with its attributes and its source. -/
def indexResource (repository : Int) (links : ServiceLinks) (r : Resource) : Step Unit := do
  let service := links.lookup (r.serviceDirectory.getD [])
  let id? ← orWarn ("Failed to persist provider resource " ++ r.name)
    (writing (·.insertResource repository r service))
  match id? with
  | none => return ()
  | some id =>
    indexAttributes id r.name r.attributes
    match r.source with
    | none => return ()
    | some x =>
      let _ ← orWarn ("Failed to store source snippet for " ++ r.name)
        (updating (·.insertSource id x))

/-- Stores resources. -/
def indexResources (repository : Int) (links : ServiceLinks) : List Resource → Step Unit
  | [] => return ()
  | r :: rest => do
    indexResource repository links r
    indexResources repository links rest

/-- Stores what the stored sources of a repository say, and tells the number of resources. -/
def indexDefinitions (repository : Int) (resourcePrefix : Text) : Step Nat := do
  let files ← orFail .store (reading (·.files repository))
  match Schema.Provider.ofFiles resourcePrefix files with
  | .error e => throw (.extraction e)
  | .ok (provider, warnings) =>
    (logging .warning warnings : StateM State Unit)
    match Schema.services provider.sources with
    | .error e => throw (.invalid e)
    | .ok services =>
      let links ← indexServices repository [] services
      let (extracted, warnings) := provider.extract
      (logging .warning warnings : StateM State Unit)
      match extracted with
      | .error e => throw (.extraction e)
      | .ok resources =>
        indexResources repository links resources
        return resources.length

end ProviderCatalog.Sync
