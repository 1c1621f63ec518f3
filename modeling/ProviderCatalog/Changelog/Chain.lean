import ProviderCatalog.Changelog.Heading

/-!
# Releases linked to their predecessors

A release is recorded with the commit of its tag and with the release before it, which in a
changelog comes right after it. Tags are looked up by their normalised names.

## Main definitions

* `ReleaseRecord`, `ReleaseRecord.check`: releases as they are stored.
* `TagCommits`: the commits of tags by normalised name.
* `chain`: the records of the releases of a changelog.
-/

namespace ProviderCatalog.Changelog

/-- A release as it is stored. -/
structure ReleaseRecord where
  /-- The number under which the record is stored. -/
  id : Option Int
  version : Text
  tag : Text
  previousVersion : Option Text
  previousTag : Option Text
  commit : Option Text
  previousCommit : Option Text
  date : Option Text
  /-- Where the changes since the release before can be browsed. -/
  comparisonUrl : Option Text
deriving DecidableEq, Repr

/-- The name of a record in messages. -/
def ReleaseRecord.recordName : String := "ReleaseRecord"

/-- Reads a record from a datum. -/
def ReleaseRecord.check : Datum → Checked ReleaseRecord :=
  .record fun d => ReleaseRecord.mk <$> .optional d "id" .int <*> .required d "version" .text
    <*> .required d "tag" .text <*> .optional d "previous_version" .text
    <*> .optional d "previous_tag" .text <*> .optional d "commit_sha" .text
    <*> .optional d "previous_commit_sha" .text <*> .optional d "release_date" .text
    <*> .optional d "comparison_url" .text

/-- A record as a datum. -/
def ReleaseRecord.toDatum (r : ReleaseRecord) : Datum :=
  .ofFields [("id", .ofInt? r.id), ("version", .text r.version), ("tag", .text r.tag),
    ("previous_version", .ofText? r.previousVersion), ("previous_tag", .ofText? r.previousTag),
    ("commit_sha", .ofText? r.commit), ("previous_commit_sha", .ofText? r.previousCommit),
    ("release_date", .ofText? r.date), ("comparison_url", .ofText? r.comparisonUrl)]

/-- The commits of tags by the normalised names of the tags. -/
abbrev TagCommits := List (Text × Text)

/-- The commit of a tag, if it is known and not empty. -/
def TagCommits.commit? (commits : TagCommits) (tag : Text) : Option Text :=
  (commits.lookup (normalizeTag tag)).filter (!·.isEmpty)

/-- The address where the changes between two tags of a repository can be browsed. -/
def comparisonUrl (fullName older newer : Text) : Text :=
  ("https://github.com/" : Text) ++ fullName ++ "/compare/" ++ older ++ "..." ++ newer

/-- The record of a release after the release before it, if there is one. -/
def recordOf (fullName : Text) (commits : TagCommits) (r : Release) (previous : Option Release) :
    ReleaseRecord where
  id := none
  version := r.version
  tag := r.tag
  previousVersion := previous.map (·.version)
  previousTag := previous.map (·.tag)
  commit := commits.commit? r.tag
  previousCommit := previous.bind fun p => commits.commit? p.tag
  date := r.date
  comparisonUrl := previous.map fun p => comparisonUrl fullName p.tag r.tag

/-- The records of releases, the newest first, each linked to the release that follows it in the
list. -/
def chain (fullName : Text) (commits : TagCommits) : List Release → List ReleaseRecord
  | [] => []
  | r :: rs => recordOf fullName commits r rs.head? :: chain fullName commits rs

end ProviderCatalog.Changelog
