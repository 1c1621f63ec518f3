import ProviderCatalog.Validation.Record
import ProviderCatalog.Text.Search
import ProviderCatalog.Text.Blank

/-!
# The sources of a catalog

The sources are the configured repositories, the access to the service that hosts them, and how
often they are synced in the background. A repository is configured by its full name, which is an
owner and a name with one slash between them. It may have a prefix of resource names of its own, and
it may be switched off.

## Main definitions

* `RepositorySource`, `RepositorySource.check`: configured repositories, also read from a datum.
* `fullName?`: a full name without blanks around it.
* `HostAccess`, `Refresh`: the access and the background syncs.
* `Sources`, `Sources.check`: the sources, also read from a datum.
* `Sources.enabled`: the repositories that are switched on.
-/

namespace ProviderCatalog.Configuration

/-- A configured repository. -/
structure RepositorySource where
  /-- The owner and the name. -/
  fullName : Text
  resourcePrefix : Option Text
  enabled : Bool
deriving DecidableEq, Repr

/-- A full name without the blanks around it, if it is an owner and a name with one slash between
them. -/
def fullName? (t : Text) : Option Text :=
  match Text.cut? (.scalar '/') t.trim with
  | none => none
  | some (owner, name) =>
    if owner.isEmpty || name.isEmpty || name.any (· == .scalar '/') then none else some t.trim

namespace RepositorySource

/-- The name of a configured repository in messages. -/
def recordName : String := "RepositorySource"

/-- Reads a full name from a datum. -/
def checkFullName (d : Datum) : Checked Text :=
  (Checked.text d).andThen fun t =>
    match fullName? t with
    | some t => .valid t
    | none => .fail .refused

/-- Reads a configured repository from a datum. -/
def check : Datum → Checked RepositorySource :=
  .record fun d => RepositorySource.mk <$> .required d "full_name" checkFullName
    <*> .optional d "resource_prefix" .text <*> .withDefault d "enabled" true .bool

/-- A configured repository as a datum. -/
def toDatum (r : RepositorySource) : Datum :=
  .ofFields [("full_name", .text r.fullName), ("resource_prefix", .ofText? r.resourcePrefix),
    ("enabled", .bool r.enabled)]

end RepositorySource

/-- The access to the service that hosts the repositories. -/
structure HostAccess where
  token : Option Text
  apiUrl : Text
deriving DecidableEq, Repr

namespace HostAccess

/-- The name of the access in messages. -/
def recordName : String := "GitHubConfig"

/-- The address of the public service. -/
def publicApiUrl : Text := "https://api.github.com"

/-- The access where none is configured. -/
def standard : HostAccess := ⟨none, publicApiUrl⟩

/-- Reads an access from a datum. -/
def check : Datum → Checked HostAccess :=
  .record fun d => HostAccess.mk <$> .optional d "token" .text
    <*> .withDefault d "api_url" standard.apiUrl .text

/-- An access as a datum. -/
def toDatum (a : HostAccess) : Datum :=
  .ofFields [("token", .ofText? a.token), ("api_url", .text a.apiUrl)]

end HostAccess

/-- How often repositories are synced in the background. -/
structure Refresh where
  enabled : Bool
  intervalHours : Int
  /-- The most syncs at once. -/
  maxJobs : Int
deriving DecidableEq, Repr

namespace Refresh

/-- The name of the record in messages. -/
def recordName : String := "RefreshConfig"

/-- No syncs in the background. -/
def standard : Refresh := ⟨false, 24, 1⟩

/-- Reads the record from a datum. -/
def check : Datum → Checked Refresh :=
  .record fun d => Refresh.mk <$> .withDefault d "enabled" standard.enabled .bool
    <*> .withDefault d "interval_hours" standard.intervalHours (.intBetween 1 168)
    <*> .withDefault d "max_concurrent_jobs" standard.maxJobs (.intBetween 1 4)

/-- The record as a datum. -/
def toDatum (r : Refresh) : Datum :=
  .ofFields [("enabled", .bool r.enabled), ("interval_hours", .int r.intervalHours),
    ("max_concurrent_jobs", .int r.maxJobs)]

end Refresh

/-- The sources of a catalog. -/
structure Sources where
  repositories : List RepositorySource
  access : HostAccess
  refresh : Refresh
deriving DecidableEq, Repr

namespace Sources

/-- The name of the sources in messages. -/
def recordName : String := "SourcesConfig"

/-- Reads the sources from a datum. -/
def check : Datum → Checked Sources :=
  .record fun d => Sources.mk <$> .withDefault d "repositories" [] (.list RepositorySource.check)
    <*> .withDefault d "github" .standard HostAccess.check
    <*> .withDefault d "refresh" .standard Refresh.check

/-- The sources as a datum. -/
def toDatum (s : Sources) : Datum :=
  .ofFields [("repositories", .list (s.repositories.map (·.toDatum))),
    ("github", s.access.toDatum), ("refresh", s.refresh.toDatum)]

/-- The repositories that are switched on. -/
def enabled (s : Sources) : List RepositorySource := s.repositories.filter (·.enabled)

end Sources

end ProviderCatalog.Configuration
