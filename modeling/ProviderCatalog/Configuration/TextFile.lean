import ProviderCatalog.Text.EncodingFault
import ProviderCatalog.Text.Search

/-!
# Text files

## Main definitions

* `FileState`: what is found at a path.
* `plainPath`: paths in their plain form.
* `TextFile.read`: the text of a file.
-/

namespace ProviderCatalog.Configuration

/-- What is found at a path. -/
inductive FileState where
  | absent
  | directory
  | file (content : Bytes)
deriving DecidableEq, Repr

/-- A path in its plain form: without empty parts and parts that stand for the directory they are
in. -/
def plainPath (path : Text) : Text :=
  let parts := (path.splitOn (.scalar '/')).filter fun part =>
    !part.isEmpty && part != ("." : Text)
  let root : Text :=
    if path.startsWith "//" && !path.startsWith "///" then "//"
    else if path.startsWith "/" then "/"
    else ""
  if root.isEmpty && parts.isEmpty then "." else root ++ Text.join "/" parts

/-- What is found at a path among some files and the directories that they are in. -/
def FileState.among (files : List (Text × Bytes)) (path : Text) : FileState :=
  let path := plainPath path
  match files.find? fun f => plainPath f.1 == path with
  | some (_, content) => .file content
  | none =>
    if path == ("." : Text) || files.any fun f => (plainPath f.1).startsWith (path ++ "/") then
      .directory
    else .absent

namespace TextFile

/-- A text with line feeds for all line breaks of other systems. -/
def withLineFeeds : Text → Text
  | .scalar '\r' :: .scalar '\n' :: t => .scalar '\n' :: withLineFeeds t
  | .scalar '\r' :: t => .scalar '\n' :: withLineFeeds t
  | p :: t => p :: withLineFeeds t
  | [] => []

/-- The text of a file in UTF-8. -/
def read (bs : Bytes) : Except DecodeFault Text :=
  match Utf8.decodeFault? bs with
  | some f => .error f
  | none => .ok (withLineFeeds (Text.ofUtf8Lossy bs))

end TextFile

end ProviderCatalog.Configuration
