import ProviderCatalog.Validation.Record

/-!
# Payloads of the remote side

The records that the remote side describes a repository with: its summary, the description of its
readme file, its tags and the comparison of two of its states.

## Main definitions

* `Summary`, `Contents`, `Tag`, `Comparison`: the records, each with its reader.
-/

namespace ProviderCatalog.Remote

/-- What the remote side says about a repository. -/
structure Summary where
  /-- The name without the owner. -/
  name : Text
  /-- The name with the owner in front. -/
  fullName : Text
  description : Option Text
  /-- The time of the last update as it is reported. -/
  updatedAt : Text
  pageUrl : Text
  isPrivate : Bool
  isArchived : Bool
  size : Int
deriving DecidableEq, Repr

/-- The name of a summary in messages. -/
def Summary.recordName : String := "RemoteRepositorySummary"

/-- Reads a summary from a datum. -/
def Summary.check : Datum → Checked Summary :=
  .record fun d => Summary.mk <$> .required d "name" .text <*> .required d "full_name" .text
    <*> .optional d "description" .text <*> .withDefault d "updated_at" [] .text
    <*> .withDefault d "html_url" [] .text <*> .withDefault d "private" false .bool
    <*> .withDefault d "archived" false .bool <*> .withDefault d "size" 0 .int

/-- A summary as a datum. -/
def Summary.toDatum (s : Summary) : Datum :=
  .ofFields [("name", .text s.name), ("full_name", .text s.fullName),
    ("description", .ofText? s.description), ("updated_at", .text s.updatedAt),
    ("html_url", .text s.pageUrl), ("private", .bool s.isPrivate), ("archived", .bool s.isArchived),
    ("size", .int s.size)]

/-- The description of a file with its content or the address of it. -/
structure Contents where
  name : Text
  path : Text
  type : Text
  downloadUrl : Option Text
  /-- The content in base 64. -/
  content : Option Text
  size : Int
deriving DecidableEq, Repr

/-- The name of a description of a file in messages. -/
def Contents.recordName : String := "GitHubContent"

/-- Reads a description of a file from a datum. -/
def Contents.check : Datum → Checked Contents :=
  .record fun d => Contents.mk <$> .withDefault d "name" [] .text
    <*> .withDefault d "path" [] .text <*> .withDefault d "type" [] .text
    <*> .optional d "download_url" .text <*> .optional d "content" .text
    <*> .withDefault d "size" 0 .int

/-- A description of a file as a datum. -/
def Contents.toDatum (c : Contents) : Datum :=
  .ofFields [("name", .text c.name), ("path", .text c.path), ("type", .text c.type),
    ("download_url", .ofText? c.downloadUrl), ("content", .ofText? c.content),
    ("size", .int c.size)]

/-- The state that a tag marks. -/
structure Commit where
  sha : Text
  url : Text
deriving DecidableEq, Repr

/-- Reads a state from a datum. -/
def Commit.check : Datum → Checked Commit :=
  .record fun d => Commit.mk <$> .withDefault d "sha" [] .text <*> .withDefault d "url" [] .text

/-- A state as a datum. -/
def Commit.toDatum (c : Commit) : Datum := .ofFields [("sha", .text c.sha), ("url", .text c.url)]

/-- A tag of a repository. -/
structure Tag where
  name : Text
  commit : Commit
deriving DecidableEq, Repr

/-- The name of a tag in messages. -/
def Tag.recordName : String := "GitHubTag"

/-- Reads a tag from a datum. -/
def Tag.check : Datum → Checked Tag :=
  .record fun d => Tag.mk <$> .required d "name" .text
    <*> .withDefault d "commit" ⟨[], []⟩ Commit.check

/-- A tag as a datum. -/
def Tag.toDatum (t : Tag) : Datum :=
  .ofFields [("name", .text t.name), ("commit", t.commit.toDatum)]

/-- A file that differs between two states. -/
structure ChangedFile where
  name : Text
  status : Text
  patch : Option Text
deriving DecidableEq, Repr

/-- Reads a changed file from a datum. -/
def ChangedFile.check : Datum → Checked ChangedFile :=
  .record fun d => ChangedFile.mk <$> .required d "filename" .text
    <*> .withDefault d "status" [] .text <*> .optional d "patch" .text

/-- A changed file as a datum. -/
def ChangedFile.toDatum (f : ChangedFile) : Datum :=
  .ofFields [("filename", .text f.name), ("status", .text f.status), ("patch", .ofText? f.patch)]

/-- The comparison of two states. -/
structure Comparison where
  files : List ChangedFile
deriving DecidableEq, Repr

/-- The name of a comparison in messages. -/
def Comparison.recordName : String := "CompareResult"

/-- Reads a comparison from a datum. -/
def Comparison.check : Datum → Checked Comparison :=
  .record fun d => Comparison.mk <$> .withDefault d "files" [] (.list ChangedFile.check)

/-- A comparison as a datum. -/
def Comparison.toDatum (c : Comparison) : Datum :=
  .ofFields [("files", .list (c.files.map ChangedFile.toDatum))]

end ProviderCatalog.Remote
