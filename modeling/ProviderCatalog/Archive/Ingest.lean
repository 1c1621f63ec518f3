import ProviderCatalog.Archive.Tar
import ProviderCatalog.Repository.File
import ProviderCatalog.Text.Case
import ProviderCatalog.Text.Search

/-!
# Taking files out of an archive

The regular files of an archive are stored one by one, in the order of the archive. The members of a
repository's archive lie in a directory of its own, which is dropped from their paths; files below
excluded directories are not kept, and their data is not read. The type of a file follows from the
extension of its name. A file that the store refuses is left out with a warning. An archive that
cannot be read on and a name that cannot be encoded end the walk; what was stored before stays.

## Main definitions

* `Archive.repositoryPath`: the path of a member below the root of the repository.
* `Archive.isExcluded`, `Archive.isKept`: whether a file is kept at a path.
* `Archive.isAsked`: whether the data of a file is read.
* `Archive.fileType`: the type of a file by its name.
* `Archive.file?`: the file that a member is stored as, if it is kept.
* `Archive.ingest`: the walk over a listing with an arbitrary store.
* `Archive.ingestBytes`: the walk over a compressed archive.
-/

namespace ProviderCatalog.Archive

/-! ### Paths -/

/-- Whether a code point is a slash. -/
def isSlash (p : CodePoint) : Bool := p == .scalar '/'

/-- The path of a member below the first directory of its name, without outer slashes. -/
def repositoryPath (name : Text) : Text :=
  match Text.cut? (.scalar '/') (Text.dropLeft isSlash name) with
  | some (_, below) => Text.dropEnds isSlash below
  | none => []

/-- The directories whose files are not kept. -/
def excludedDirectories : List Text := [".git", ".github", "node_modules", ".terraform", "vendor"]

/-- Whether a segment of a path is the name of an excluded directory. -/
def isExcluded (path : Text) : Bool :=
  (path.splitOn (.scalar '/')).any excludedDirectories.contains

/-- Whether a file is kept at a path. -/
def isKept (path : Text) : Bool := !path.isEmpty && !isExcluded path

/-- Whether the data of a file is read that has a name. -/
def isAsked (name : Text) : Bool := isKept (repositoryPath name)

/-- The extension of a path from its last point on. A point in front of the last segment's name is
not one, nor is one before it. -/
def extension (path : Text) : Text :=
  let base := (path.reverse.takeWhile (!isSlash ·)).reverse
  let name := base.dropWhile (· == .scalar '.')
  match Text.cutLast? (.scalar '.') name with
  | some (_, e) => "." ++ e
  | none => []

/-- The types of files by their extensions. -/
def fileTypes : List (Text × Text) := [
  (".tf", "terraform"), (".md", "markdown"), (".yml", "yaml"), (".yaml", "yaml"),
  (".json", "json"), (".go", "go")]

/-- The type of the files that have no other type. -/
def otherType : Text := "other"

/-- The type of a file by its name, in any case. -/
def fileType (name : Text) : Text := (fileTypes.lookup (extension name.lower)).getD otherType

/-! ### Walks -/

/-- Why a walk ends before the end of the archive. -/
inductive Failure where
  | unread (f : ReadFailure)
  /-- A member whose name can be no name of a record. -/
  | invalid (e : Invalid)
deriving DecidableEq, Repr

/-- The message of a walk that ends early. -/
def Failure.message : Failure → Text
  | unread f => f.message
  | invalid e => e.message

/-- What a walk leaves behind. -/
structure Outcome (σ : Type) where
  store : σ
  warnings : List Text
  /-- The number of files stored, or why the walk ended early. -/
  result : Except Failure Nat

/-- How a walk ends behind the last member that can be read, after `stored` files. -/
def ending (failure : Option ReadFailure) (stored : Nat) : Except Failure Nat :=
  match failure with
  | some f => .error (.unread f)
  | none => .ok stored

/-- The file that a member is stored as; nothing for a member that is not kept. -/
def file? (repositoryId : Int) (m : Member) : Option (Except Invalid RepositoryFile) :=
  let path := repositoryPath m.name
  if !m.isFile || !isKept path then none
  else some (RepositoryFile.make repositoryId path (baseName path) (fileType path)
    (.ofUtf8Lossy m.content) m.content.length)

/-- The warning about a file that the store refuses. -/
def refusalWarning (path reason : Text) : Text :=
  "Failed to store " ++ path ++ ": " ++ reason

variable {σ : Type}

/-- Stores the files of the remaining members, after `stored` files. -/
def ingestFrom (insert : RepositoryFile → σ → Except Text σ) (repositoryId : Int)
    (failure : Option ReadFailure) (stored : Nat) (warnings : List Text) (store : σ) :
    List Member → Outcome σ
  | [] => ⟨store, warnings.reverse, ending failure stored⟩
  | m :: ms =>
    match file? repositoryId m with
    | none => ingestFrom insert repositoryId failure stored warnings store ms
    | some (.error e) => ⟨store, warnings.reverse, .error (.invalid e)⟩
    | some (.ok f) =>
      match insert f store with
      | .ok store => ingestFrom insert repositoryId failure (stored + 1) warnings store ms
      | .error reason =>
        ingestFrom insert repositoryId failure stored (refusalWarning f.path reason :: warnings)
          store ms

/-- Stores the files of a listing. -/
def ingest (insert : RepositoryFile → σ → Except Text σ) (repositoryId : Int) (l : Listing)
    (store : σ) : Outcome σ :=
  ingestFrom insert repositoryId l.failure 0 [] store l.members

/-- The listing of a compressed archive. -/
def listing (data : Bytes) : Except ReadFailure Listing :=
  match Gzip.decode data with
  | .ok s => .ok (Tar.list isAsked s)
  | .error .unreadable => .error .damaged
  | .error .cutOff => .error .headerCut

/-- Stores the files of a compressed archive. -/
def ingestBytes (insert : RepositoryFile → σ → Except Text σ) (repositoryId : Int) (data : Bytes)
    (store : σ) : Outcome σ :=
  match listing data with
  | .ok l => ingest insert repositoryId l store
  | .error f => ⟨store, [], .error (.unread f)⟩

end ProviderCatalog.Archive
