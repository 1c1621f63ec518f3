import ProviderCatalog.Sync.Plan
import ProviderCatalog.Sync.State
import ProviderCatalog.Changelog.Chain
import ProviderCatalog.Changelog.Entry

/-!
# Storing the releases of a repository

The releases are read from the stored changelog, linked to the commits of the tags that the remote
side lists, and stored with their entries. Without the tags the releases are stored without commits.

## Main definitions

* `tagCommits`: the commits of listed tags.
* `listTags`: the tags that the remote side lists, or none with a warning.
* `captureReleases`: the releases of a changelog, stored.
-/

namespace ProviderCatalog

/-- Whether a call failed by an answer that is not what was asked for, or for want of a token. A
malformed document is such an answer; one with too long an integer or nested too deep is not. -/
def Remote.Fault.isAnswer : Remote.Fault → Bool
  | refused _ | unavailable _ | exhausted | notDocument .malformed | notList | noContent => true
  | _ => false

namespace Sync

open Changelog (Release ReleaseRecord TagCommits)

/-- The commits of listed tags by normalised name, the last tag of a name first. Tags whose names are
blank are left out. -/
def tagCommits (tags : List Remote.Tag) : TagCommits :=
  (tags.filterMap fun t =>
    match Changelog.normalizeTag t.name with
    | [] => none
    | name => some (name, t.commit.sha)).reverse

/-- The tags that the remote side lists. An answer without tags is passed over with a warning. -/
def listTags (p : Plan) (remote : Remote) (fullName : Text) : Step (List Remote.Tag) := do
  match ← (asking (p.client.tags remote fullName p.tagPages) : StateM State _) with
  | .ok tags => return tags
  | .error f =>
    if f.isAnswer then
      (warn (("Failed to fetch tags for " : Text) ++ fullName ++ ": " ++ f.message) :
        StateM State Unit)
      return []
    else throw (.remote f)

/-- A release that the store refuses; any other fault of the store stands for itself. -/
def releaseFailure (version : Text) (f : Store.Fault) : Failure :=
  if f.isRefusal then .releaseNotStored version f else .store f

/-- Stores a release with its entries. -/
def storeRelease (repository : Int) (resourcePrefix : Text) (r : Release) (record : ReleaseRecord) :
    Step Unit := do
  let id ← orFail (releaseFailure r.version) (writing (·.insertRelease repository record))
  match Changelog.entries resourcePrefix r with
  | .error e => throw (.invalid e)
  | .ok es => orFail (releaseFailure r.version) (updating (·.replaceEntries id es))

/-- Stores releases with their records. -/
def storeReleases (repository : Int) (resourcePrefix : Text) :
    List (Release × ReleaseRecord) → Step Unit
  | [] => return ()
  | (r, record) :: rest => do
    storeRelease repository resourcePrefix r record
    storeReleases repository resourcePrefix rest

/-- Stores the releases of the changelog of a repository, and tells their number. -/
def captureReleases (p : Plan) (remote : Remote) (repository : Int) (s : Remote.Summary)
    (resourcePrefix : Text) : Step Nat := do
  match ← orFail .store (reading (·.file? s.name p.changelogPath)) with
  | none => throw (.noChangelog p.changelogPath)
  | some changelog =>
    let releases := Changelog.read p.releaseLimit changelog.content
    if releases.isEmpty then throw (.noReleases p.changelogPath)
    let tags ← listTags p remote s.fullName
    let records := Changelog.chain s.fullName (tagCommits tags) releases
    storeReleases repository resourcePrefix (releases.zip records)
    return records.length

end Sync

end ProviderCatalog
