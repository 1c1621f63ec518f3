import ProviderCatalog.Validation.Record

/-!
# Files of a repository

A file of a repository as it is stored: its path below the root of the repository, its base name, a
label for its type, its decoded content and the number of bytes that it was decoded from.

## Main definitions

* `RepositoryFile`: the files.
* `RepositoryFile.make`, `RepositoryFile.check`: files made of their parts or read from a datum.
* `baseName`: the last segment of a path.
-/

namespace ProviderCatalog

/-- A file of a repository. -/
structure RepositoryFile where
  repositoryId : Int
  path : Text
  name : Text
  type : Text
  content : Text
  size : Int
deriving DecidableEq, Repr

/-- The segment of a path after its last slash. -/
def baseName (path : Text) : Text :=
  (path.reverse.takeWhile (· != .scalar '/')).reverse

namespace RepositoryFile

/-- The name of a file in messages. -/
def recordName : String := "IngestedFile"

/-- Reads a file from a datum. -/
def check : Datum → Checked RepositoryFile :=
  .record fun d => RepositoryFile.mk <$> .required d "repository_id" .int
    <*> .required d "file_path" .nonEmptyText <*> .required d "file_name" .nonEmptyText
    <*> .required d "file_type" .text <*> .required d "content" .text
    <*> .required d "size_bytes" (.intAtLeast 0)

/-- A file as a datum. -/
def toDatum (f : RepositoryFile) : Datum :=
  .ofFields [("repository_id", .int f.repositoryId), ("file_path", .text f.path),
    ("file_name", .text f.name), ("file_type", .text f.type), ("content", .text f.content),
    ("size_bytes", .int f.size)]

/-- A file made of its parts, whose path and name must be texts that can be encoded and are not
empty. -/
def make (repositoryId : Int) (path name type content : Text) (size : Nat) :
    Except Invalid RepositoryFile :=
  let c := RepositoryFile.mk <$> pure repositoryId
    <*> (Checked.nonEmptyText path).within (.field "file_path")
    <*> (Checked.nonEmptyText name).within (.field "file_name")
    <*> pure type <*> pure content <*> pure (size : Int)
  c.asRecord recordName

end RepositoryFile

end ProviderCatalog
