import ProviderCatalog.Number.Decimal
import ProviderCatalog.Text.Utf8

/-!
# Members of an archive

An archive is a list of members, of which the regular files have a content. Reading it may fail
before the archive ends: its data may turn out to be damaged, and its headers may lead the reader
into faults that are not told as damage.

## Main definitions

* `Member`: the members.
* `ReadFailure`, `ReadFailure.message`: why an archive cannot be read on.
* `Listing`: the members that can be read, and the failure with which reading them ends.
-/

namespace ProviderCatalog.Archive

/-- A member of an archive. -/
structure Member where
  name : Text
  /-- Whether the member is a regular file. -/
  isFile : Bool
  /-- The content of a regular file that has been read. -/
  content : Bytes
deriving DecidableEq, Repr

/-- Why an archive cannot be read on. -/
inductive ReadFailure where
  /-- The data is damaged. -/
  | damaged
  /-- The compressed data ends within its first bytes. -/
  | headerCut
  /-- A block that continues the map of a sparse file ends within the map. -/
  | mapCut
  /-- A line of the map of a sparse file is not ended. -/
  | lineOpen
  /-- A number about a sparse file cannot be read. -/
  | numeral (f : Decimal.IntegerFault)
  /-- A gap of a sparse file is longer than a byte string can be. -/
  | gapTooLong
  /-- Too many headers stand in a row, each of them about the next one. -/
  | nestedTooDeep
deriving DecidableEq, Repr

/-- The message about data that is damaged. -/
def readFailureMessage : Text := "Failed to read archive"

/-- The message of a failure. -/
def ReadFailure.message : ReadFailure → Text
  | damaged => readFailureMessage
  | headerCut => "ord() expected a character, but string of length 0 found"
  | mapCut => "index out of range"
  | lineOpen => "not enough values to unpack (expected 2, got 1)"
  | numeral f => f.message
  | gapTooLong => "cannot fit 'int' into an index-sized integer"
  | nestedTooDeep => "maximum recursion depth exceeded while calling a Python object"

/-- The members that can be read of an archive, in order. -/
structure Listing where
  members : List Member
  /-- Why reading beyond the members fails, unless it finds the end. -/
  failure : Option ReadFailure
deriving DecidableEq, Repr

end ProviderCatalog.Archive
