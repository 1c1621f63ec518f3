import ProviderCatalog.Remote.Payload

/-!
# Records of repositories

What the catalog keeps about a repository itself: its names, its description, where it can be
browsed, the time of its last update as the remote side reported it, and its readme text.

## Main definitions

* `RepositoryRecord`, `RepositoryRecord.check`: the records, also read from a datum.
* `RepositoryRecord.ofSummary`: the record of a repository that was just looked up.
-/

namespace ProviderCatalog

/-- The record of a repository. -/
structure RepositoryRecord where
  /-- The number under which the record is stored. -/
  id : Option Int
  name : Text
  fullName : Text
  description : Option Text
  pageUrl : Text
  /-- The time of the last update, as it was reported when the repository was synced last. -/
  lastUpdated : Option Text
  readme : Option Text
deriving DecidableEq, Repr

namespace RepositoryRecord

/-- The name of a record in messages. -/
def recordName : String := "RepositoryRecord"

/-- Reads a record from a datum. -/
def check : Datum → Checked RepositoryRecord :=
  .record fun d => RepositoryRecord.mk <$> .optional d "id" .int <*> .required d "name" .text
    <*> .required d "full_name" .text <*> .optional d "description" .text
    <*> .withDefault d "repo_url" [] .text <*> .optional d "last_updated" .text
    <*> .optional d "readme_content" .text

/-- A record as a datum. -/
def toDatum (r : RepositoryRecord) : Datum :=
  .ofFields [("id", .ofInt? r.id), ("name", .text r.name), ("full_name", .text r.fullName),
    ("description", .ofText? r.description), ("repo_url", .text r.pageUrl),
    ("last_updated", .ofText? r.lastUpdated), ("readme_content", .ofText? r.readme)]

/-- The record of a repository with a summary, not stored yet. -/
def ofSummary (s : Remote.Summary) (readme : Option Text) : RepositoryRecord :=
  ⟨none, s.name, s.fullName, s.description, s.pageUrl, some s.updatedAt, readme⟩

end RepositoryRecord

end ProviderCatalog
