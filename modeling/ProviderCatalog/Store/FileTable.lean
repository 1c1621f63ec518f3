import ProviderCatalog.Store.Table
import ProviderCatalog.Search.Ranking
import ProviderCatalog.Repository.File

/-!
# The table of files

The table of files has an index beside it, which keeps the words of the files once more. The index
is told of every file that comes, changes or goes; only when everything of a repository was removed,
it is built anew.

## Main definitions

* `fileTexts`, `indexOf`: what is indexed of files.
* `FileTable`: the table of files with its index.
* `FileTable.ofTable`: a table with an index that is built anew.
* `FileTable.store`, `FileTable.remove`: files that are stored and removed.
-/

namespace ProviderCatalog.Store

/-- The texts of a file by which it is found. -/
def fileTexts (f : RepositoryFile) : List Text := [f.name, f.path, f.content]

/-- The index of all files of a table. -/
def indexOf (files : Table RepositoryFile) : Search.Index :=
  .build (files.rows.map fun r => (r.id, fileTexts r.value))

/-- A table of files with an index. -/
structure FileTable extends Table RepositoryFile where
  /-- The words of the files. -/
  index : Search.Index
deriving DecidableEq, Repr

namespace FileTable

/-- A table of files with the index of all of them. -/
def ofTable (t : Table RepositoryFile) : FileTable := ⟨t, indexOf t⟩

@[simp] theorem toTable_ofTable (t : Table RepositoryFile) : (ofTable t).toTable = t := rfl

/-- The table without files. -/
def empty : FileTable := .ofTable .empty

/-- The index after a file was stored in a row with a number: it is told the texts of the file, and
those of the file that had the key before. -/
def reindexed (t : FileTable) (f : RepositoryFile) (id : Int) : Search.Index :=
  match t.find? fun g => (g.repositoryId, g.path) == (f.repositoryId, f.path) with
  | some old => t.index.replace id (fileTexts old.value) (fileTexts f)
  | none => t.index.insert id (fileTexts f)

/-- Stores a file under its repository and path. -/
def store (t : FileTable) (f : RepositoryFile) : FileTable :=
  let (table, id) := t.put (fun f => (f.repositoryId, f.path)) f
  ⟨table, t.reindexed f id⟩

/-- The table without the files that meet a condition. -/
def remove (t : FileTable) (p : Row RepositoryFile → Bool) : FileTable :=
  ⟨t.erase p, (t.rows.filter p).foldl (fun i r => i.remove r.id (fileTexts r.value)) t.index⟩

end FileTable

end ProviderCatalog.Store
