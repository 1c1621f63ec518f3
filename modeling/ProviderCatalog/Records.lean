import ProviderCatalog.Changelog.Chain
import ProviderCatalog.Changelog.Entry
import ProviderCatalog.Configuration.Settings
import ProviderCatalog.Remote.Payload
import ProviderCatalog.Repository.Record
import ProviderCatalog.Schema.Registration
import ProviderCatalog.Schema.Resource
import ProviderCatalog.Schema.Service
import ProviderCatalog.Sync.Progress

/-!
# The records of the catalog

Every record of the catalog is read from data of its form, and written as a datum with all its
fields.

## Main definitions

* `completed`: the readers by the names of records, each followed by writing.
* `complete?`: a datum completed as a record.
-/

namespace ProviderCatalog.Records

/-- A reader followed by writing. -/
def completing {α : Type} (check : Datum → Checked α) (write : α → Datum) (d : Datum) :
    Checked Datum :=
  (check d).map write

open Changelog ProviderCatalog.Configuration Remote Schema Sync in
/-- The readers by the names of records, each followed by writing. -/
def completed : List (String × (Datum → Checked Datum)) := [
  ("RepositorySource", completing RepositorySource.check (·.toDatum)),
  ("GitHubConfig", completing HostAccess.check (·.toDatum)),
  ("RefreshConfig", completing Refresh.check (·.toDatum)),
  ("SourcesConfig", completing Sources.check (·.toDatum)),
  ("ResourceRegistration", completing Registration.check (·.toDatum)),
  ("ProviderService", completing Service.check (·.toDatum)),
  ("ProviderAttribute", completing Attribute.check (·.toDatum)),
  ("ParsedProviderResource", completing Resource.check (·.toDatum)),
  ("SourceSnippetBundle", completing SnippetBundle.check (·.toDatum)),
  ("ReleaseSection", completing Section.check (·.toDatum)),
  ("ParsedRelease", completing Release.check (·.toDatum)),
  ("ReleaseEntry", completing Entry.check (·.toDatum)),
  ("ReleaseRecord", completing ReleaseRecord.check (·.toDatum)),
  ("IngestedFile", completing RepositoryFile.check (·.toDatum)),
  ("RepositoryRecord", completing RepositoryRecord.check (·.toDatum)),
  ("GitHubTagCommit", completing Commit.check (·.toDatum)),
  ("GitHubTag", completing Tag.check (·.toDatum)),
  ("GitHubContent", completing Contents.check (·.toDatum)),
  ("CompareFile", completing ChangedFile.check (·.toDatum)),
  ("CompareResult", completing Comparison.check (·.toDatum)),
  ("RemoteRepositorySummary", completing Summary.check (·.toDatum)),
  ("SyncProgress", completing Progress.check (·.toDatum)),
  ("RepoSyncResult", completing RepositoryResult.check (·.toDatum))]

/-- A datum completed as a record of the given name, if there are such records. -/
def complete? (name : String) (d : Datum) : Option (Except Invalid Datum) :=
  (completed.lookup name).map fun read => (read d).asRecord name

end ProviderCatalog.Records
