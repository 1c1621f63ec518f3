import Mathlib.Algebra.Group.Nat.Defs
import ProviderCatalog.Proofs.Archive.Retained
import ProviderCatalog.Proofs.Store.Calls
import ProviderCatalog.Proofs.Store.Operations
import ProviderCatalog.Proofs.Store.Rows
import ProviderCatalog.Proofs.Store.Validity
import ProviderCatalog.Proofs.Text.Pieces
import ProviderCatalog.Sync.Repository

/-!
# What an archive leaves in the store

The retained files of an archive are stored under their paths one after the other. So afterwards a
repository has, at each path of a retained member, the file of the last member retained there, and
its other files as they were. A file that is refused leaves no trace, and the same archive once more
changes no row.

## Main definitions

* `Tables.putFiles`: the tables after files were stored one after the other.
* `CanIngest`: an archive and a store whose repository can take it.

## Main results

* `Tables.Valid.filesOf_eq_ok`: the files of a repository as they are read.
* `ingest_eq`: the store after a walk.
* `ingest_stores_last_retained`: what can be read after a walk.
-/

namespace ProviderCatalog

open Archive (IsLastRetained IsRetained Listing Member accepted ingest isRetained refusalWarnings
  refusing retainedFiles storedFile)
open Store (Param Row Table Tables fileKey)

variable {t : Tables} {id : Int} {ms : List Member} {f : RepositoryFile}

/-! ### Files that are read -/

namespace Store.Tables

/-- The files of a repository are read by path, each path once. -/
theorem Valid.filesOf_eq_ok (h : t.Valid) (hid : (Param.number id).fault? = none) :
    ∃ fs, t.filesOf id = .ok fs ∧ fs.Pairwise (fun f g => precedes f.path g.path = true) ∧
      (fs.map (·.path)).Nodup ∧
      ∀ f, f ∈ fs ↔ ∃ g ∈ t.files.values, g.repositoryId = id ∧ readFile g = f := by
  let fs := (t.files.select (·.repositoryId == id)).map (·.value)
  have hread : t.filesOf id =
      .ok ((fs.mergeSort fun f g => precedes f.path g.path).map readFile) := by
    rw [filesOf, Param.bind_of_fits hid]
    rfl
  have hkeyed : (t.files.select (·.repositoryId == id)).Pairwise
      fun r r' => r.value.path ≠ r'.value.path := by
    refine List.Pairwise.imp_of_mem (fun {r r'} hr hr' hkeys hpath => hkeys ?_)
      (h.files.keyed.filter _)
    have howner := beq_iff_eq.mp (List.mem_filter.mp hr).2
    have howner' := beq_iff_eq.mp (List.mem_filter.mp hr').2
    exact Prod.ext (howner.trans howner'.symm) hpath
  have hnodup : (fs.map (·.path)).Nodup := by
    rw [List.map_map]
    exact List.pairwise_map.mpr hkeyed
  refine ⟨_, hread, ?_, ?_, fun f => ?_⟩
  · refine List.pairwise_map.mpr ((Text.pairwise_mergeSort (·.path) fs).imp fun {f g} hfg => ?_)
    simpa [precedes, readFile] using hfg
  · rw [List.map_map]
    exact ((List.mergeSort_perm fs _).map _).nodup_iff.mpr hnodup
  · have hmem (g : RepositoryFile) : g ∈ fs ↔ g ∈ t.files.values ∧ g.repositoryId = id := by
      simp only [fs, Table.select, Table.values, List.mem_map, List.mem_filter, beq_iff_eq]
      constructor
      · rintro ⟨r, ⟨hr, howner⟩, rfl⟩
        exact ⟨⟨r, hr, rfl⟩, howner⟩
      · rintro ⟨⟨r, hr, rfl⟩, howner⟩
        exact ⟨r, ⟨hr, howner⟩, rfl⟩
    simp only [List.mem_map, List.mem_mergeSort, hmem, and_assoc]

/-- The tables after files were stored one after the other. -/
def putFiles (t : Tables) (fs : List RepositoryFile) : Tables :=
  { t with files := .ofTable (t.files.putAll fileKey fs) }

theorem Valid.putFiles (h : t.Valid) {fs : List RepositoryFile}
    (hfs : ∀ f ∈ fs, t.repositories.has f.repositoryId = true) : (t.putFiles fs).Valid :=
  { h with
    files := h.files.putAll fs
    filesOwned := fun r hr => by
      rcases (h.files.mem_values_putAll fs).mp (List.mem_map_of_mem hr) with hlast | ⟨hold, -⟩
      · exact hfs r.value hlast.mem
      · obtain ⟨r', hr', hsame⟩ := List.mem_map.mp hold
        exact hsame ▸ h.filesOwned r' hr'
    mirrored := rfl }

/-- Files of one repository leave the rows of the others as they are. -/
theorem rows_putFiles_other {fs : List RepositoryFile} (hfs : ∀ f ∈ fs, f.repositoryId = id)
    {other : Int} (hother : other ≠ id) :
    (t.putFiles fs).files.rows.filter (·.value.repositoryId == other) =
      t.files.rows.filter (·.value.repositoryId == other) := by
  refine Table.filter_putAll fun f hf r hkey => beq_eq_false_iff_ne.mpr ?_
  have howner : r.value.repositoryId = id := (congrArg Prod.fst hkey).trans (hfs f hf)
  exact howner ▸ hother.symm

/-- The same files read as they did if they are stored once more. -/
theorem Valid.filesOf_putFiles_again (h : t.Valid) (fs : List RepositoryFile) (id : Int) :
    ((t.putFiles fs).putFiles fs).filesOf id = (t.putFiles fs).filesOf id := by
  have hrows : ((t.putFiles fs).putFiles fs).files.rows = (t.putFiles fs).files.rows :=
    h.files.rows_putAll_again fs
  rw [filesOf, filesOf, Table.select, hrows]
  rfl

end Store.Tables

namespace Sync

/-! ### Files that are stored -/

/-- An archive and a store that can take it for a repository: the store has valid tables with the
record of the repository, names can be encoded, and numbers need no more than 64 bits. -/
structure CanIngest (s : Store) (t : Tables) (id : Int) (ms : List Member) : Prop where
  tables : s.tables = some t
  valid : t.Valid
  owner : t.repositories.has id = true
  number : id < 2 ^ 63
  writes : s.outOfOrder.contains .insertFile = false
  reads : s.outOfOrder.contains .files = false
  names : ∀ m ∈ ms, m.name.isUnicode = true
  sizes : ∀ m ∈ ms, m.content.length < 2 ^ 63

/-- The values of a retained file fit into their columns. -/
theorem storedFile_fits {m : Member} (hid : (Param.number id).fault? = none)
    (hname : m.name.isUnicode = true) (hsize : m.content.length < 2 ^ 63) :
    Param.bind (Param.ofFile (storedFile id m)) = .ok () := by
  have hpath := Text.isUnicode_of_subset (Archive.repositoryPath_subset m.name) hname
  have hbase :=
    Text.isUnicode_of_subset (Archive.baseName_subset (Archive.repositoryPath m.name)) hpath
  have hlength : (Param.number (m.content.length : Int)).fault? = none :=
    Param.fits_iff.mpr (by omega)
  rw [Param.bind_eq_ok_iff]
  simp [Param.ofFile, storedFile, hid, hlength, Param.text_fits_iff, hpath, hbase,
    Archive.fileType_named, Archive.isUnicode_ofUtf8Lossy]

namespace CanIngest

variable {s : Store} {l : Listing}

theorem numbered (h : CanIngest s t id ms) : (Param.number id).fault? = none := by
  obtain ⟨r, hr, rfl⟩ := Table.has_iff.mp h.owner
  have hpositive := h.valid.repositories.positive r hr
  have hnumber := h.number
  exact Param.fits_iff.mpr (by omega)

theorem files_eq (h : CanIngest s t id ms) : s.files id = t.filesOf id :=
  Store.read_inOrder h.reads h.tables

/-- A store that can take an archive can take it after files were stored too. -/
theorem putFiles (h : CanIngest s t id ms) {fs : List RepositoryFile}
    (hfs : ∀ f ∈ fs, f.repositoryId = id) :
    CanIngest { s with tables := some (t.putFiles fs) } (t.putFiles fs) id ms :=
  { h with
    tables := rfl
    valid := h.valid.putFiles fun f hf => (hfs f hf).symm ▸ h.owner }

end CanIngest

/-- The store after one more file. -/
private def withFile (f : RepositoryFile) (s : Store) : Store :=
  { s with tables := s.tables.map (·.putFiles [f]) }

private theorem foldl_withFile {s : Store} (ht : s.tables = some t)
    (hindex : t.files.index = Store.indexOf t.files.toTable) (fs : List RepositoryFile) :
    fs.foldl (fun s f => withFile f s) s = { s with tables := some (t.putFiles fs) } := by
  induction fs generalizing s t with
  | nil =>
    rw [List.foldl_nil, Tables.putFiles, Table.putAll, List.foldl_nil, Store.FileTable.ofTable,
      ← hindex, ← ht]
  | cons f fs ih =>
    have hstep : (withFile f s).tables = some (t.putFiles [f]) := by
      rw [withFile, ht, Option.map_some]
    rw [List.foldl_cons, ih hstep rfl]
    rfl

/-- A walk stores the retained files that are not refused, one after the other. -/
theorem ingest_eq {s : Store} {l : Listing} (h : CanIngest s t id l.members)
    (reason? : Text → Option Text) :
    ingest (refusing reason? storeFile) id l s =
      { store :=
          { s with tables := some (t.putFiles (accepted reason? (retainedFiles id l.members))) }
        warnings := refusalWarnings reason? (retainedFiles id l.members)
        result :=
          Archive.ending l.failure (accepted reason? (retainedFiles id l.members)).length } := by
  let P (s : Store) : Prop := ∃ t : Tables, s.tables = some t ∧ t.Valid ∧
    t.repositories.has id = true ∧ s.outOfOrder.contains .insertFile = false
  have hinsert : ∀ f ∈ retainedFiles id l.members, ∀ s, P s →
      storeFile f s = .ok (withFile f s) ∧ P (withFile f s) := by
    rintro f hf s ⟨t, ht, hvalid, howner, horder⟩
    obtain ⟨m, hm, rfl⟩ := List.mem_map.mp hf
    have hmem := List.mem_of_mem_filter hm
    have hfits := storedFile_fits h.numbered (h.names m hmem) (h.sizes m hmem)
    have hput : t.putFile (storedFile id m) = .ok (t.putFiles [storedFile id m]) := by
      rw [Tables.putFile_eq howner, hfits, hvalid.store_eq]
      rfl
    refine ⟨?_, t.putFiles [storedFile id m], ?_, hvalid.putFile hput, howner, horder⟩
    · rw [storeFile, Store.insertFile, Store.update_inOrder horder ht, hput, withFile, ht]
      rfl
    · rw [withFile, ht, Option.map_some]
  rw [Archive.ingest_refusing reason? h.names hinsert ⟨t, h.tables, h.valid, h.owner, h.writes⟩,
    foldl_withFile h.tables h.valid.mirrored]

/-! ### What the walk leaves -/

theorem accepted_retainedFiles (reason? : Text → Option Text) (id : Int) (ms : List Member) :
    accepted reason? (retainedFiles id ms) =
      (ms.filter fun m => isRetained m && (reason? (Archive.repositoryPath m.name)).isNone).map
        (storedFile id) := by
  rw [accepted, retainedFiles, List.filter_map, List.filter_filter]
  refine congrArg _ (List.filter_congr fun m _ => ?_)
  exact Bool.and_comm _ _

/-- A path is one of a file that is stored if a member is retained there and it is not refused. -/
theorem exists_accepted_iff {reason? : Text → Option Text} {path : Text} :
    (∃ f ∈ accepted reason? (retainedFiles id ms), fileKey f = (id, path)) ↔
      reason? path = none ∧ ∃ m ∈ ms, IsRetained m path := by
  rw [accepted_retainedFiles]
  simp only [List.mem_map, List.mem_filter, Bool.and_eq_true, Option.isNone_iff_eq_none]
  constructor
  · rintro ⟨f, ⟨m, ⟨hm, hretained, hreason⟩, rfl⟩, hkey⟩
    obtain rfl : Archive.repositoryPath m.name = path := congrArg Prod.snd hkey
    exact ⟨hreason, m, hm, Archive.isRetained_iff.mp hretained⟩
  · rintro ⟨hreason, m, hm, hat⟩
    obtain ⟨hretained, rfl⟩ := Archive.isRetained_at_iff.mp hat
    exact ⟨_, ⟨m, ⟨hm, hretained, hreason⟩, rfl⟩, rfl⟩

/-- The last file of a path that is stored is the one of the last member that is retained there. -/
theorem isLast_accepted_iff {reason? : Text → Option Text} :
    IsLast fileKey f (accepted reason? (retainedFiles id ms)) ↔
      reason? f.path = none ∧ ∃ m, IsLastRetained ms f.path m ∧ f = storedFile id m := by
  rw [accepted_retainedFiles, isLast_map]
  simp only [isLast_filter, Bool.and_eq_true, Option.isNone_iff_eq_none]
  constructor
  · rintro ⟨m, rfl, earlier, later, hsplit, ⟨hretained, hreason⟩, hlater⟩
    refine ⟨hreason, m, ⟨earlier, later, hsplit, Archive.isRetained_iff.mp hretained, ?_⟩, rfl⟩
    intro m' hm' hretained'
    obtain ⟨hretained', hpath⟩ := Archive.isRetained_at_iff.mp hretained'
    exact hlater m' hm' ⟨hretained', hpath ▸ hreason⟩ (Prod.ext rfl hpath)
  · rintro ⟨hreason, m, ⟨earlier, later, hsplit, hretained, hlater⟩, rfl⟩
    obtain ⟨hretained, -⟩ := Archive.isRetained_at_iff.mp hretained
    refine ⟨m, rfl, earlier, later, hsplit, ⟨hretained, hreason⟩, ?_⟩
    rintro m' hm' ⟨hretained', -⟩ hkey
    exact hlater m' hm' (Archive.isRetained_at_iff.mpr ⟨hretained', congrArg Prod.snd hkey⟩)

/-- The files that are read after a walk are the one of the last member retained at each path that
is not refused, and the files that were there at other paths. -/
private theorem mem_filesOf_putFiles {s : Store} (h : CanIngest s t id ms)
    (reason? : Text → Option Text) {before after : List RepositoryFile}
    (hbefore : ∀ f, f ∈ before ↔ ∃ g ∈ t.files.values, g.repositoryId = id ∧ Store.readFile g = f)
    (hafter : ∀ f, f ∈ after ↔
      ∃ g ∈ (t.putFiles (accepted reason? (retainedFiles id ms))).files.values,
        g.repositoryId = id ∧ Store.readFile g = f) :
    f ∈ after ↔
      (reason? f.path = none ∧ ∃ m, IsLastRetained ms f.path m ∧ f = storedFile id m) ∨
        f ∈ before ∧ ∀ m ∈ ms, IsRetained m f.path → reason? f.path ≠ none := by
  have hread (m : Member) : Store.readFile (storedFile id m) = storedFile id m := by
    have htype : (storedFile id m).type ≠ [] := (Archive.fileType_named _).2
    simp [Store.readFile, htype]
  have hother (g : RepositoryFile) (hg : g.repositoryId = id) :
      (∀ a ∈ accepted reason? (retainedFiles id ms), fileKey a ≠ fileKey g) ↔
        ∀ m ∈ ms, IsRetained m g.path → reason? g.path ≠ none := by
    have hkey : fileKey g = (id, g.path) := Prod.ext hg rfl
    rw [← not_iff_not]
    push Not
    rw [hkey, exists_accepted_iff]
    tauto
  simp only [hafter, hbefore, Tables.putFiles, Store.FileTable.toTable_ofTable,
    h.valid.files.mem_values_putAll, isLast_accepted_iff]
  constructor
  · rintro ⟨g, ⟨hreason, m, hm, rfl⟩ | ⟨hg, hkeys⟩, howner, rfl⟩
    · rw [hread]
      exact .inl ⟨hreason, m, hm, rfl⟩
    · exact .inr ⟨⟨g, hg, howner, rfl⟩, (hother g howner).mp hkeys⟩
  · rintro (⟨hreason, m, hm, rfl⟩ | ⟨⟨g, hg, howner, rfl⟩, hfree⟩)
    · exact ⟨_, .inl ⟨hreason, m, hm, rfl⟩, rfl, hread m⟩
    · exact ⟨g, .inr ⟨hg, (hother g howner).mpr hfree⟩, howner, rfl⟩

/-- After a walk over an archive, whatever files the store refuses, a repository has at each path
that is not refused the file of the last member retained there, and its other files as they were.
Nothing else in the store is changed, the walk counts the files that were stored, and the same walk
once more counts them again and changes no row. Any store is handed the same files in the same
order. -/
theorem ingest_stores_last_retained {s : Store} {l : Listing} (h : CanIngest s t id l.members)
    (reason? : Text → Option Text) :
    let files := accepted reason? (retainedFiles id l.members)
    let told : Except Archive.Failure Nat := Archive.ending l.failure files.length
    let outcome := ingest (refusing reason? storeFile) id l s
    let again := ingest (refusing reason? storeFile) id l outcome.store
    ∃ before after t' t'',
      outcome.result = told ∧ outcome.store = { s with tables := some t' } ∧
      s.files id = .ok before ∧ outcome.store.files id = .ok after ∧
      (∀ f, f ∈ after ↔
        (reason? f.path = none ∧ ∃ m, IsLastRetained l.members f.path m ∧ f = storedFile id m) ∨
          f ∈ before ∧ ∀ m ∈ l.members, IsRetained m f.path → reason? f.path ≠ none) ∧
      after.Pairwise (fun f g => Store.precedes f.path g.path = true) ∧
      (after.map (·.path)).Nodup ∧
      t' = { t with files := t'.files } ∧
      (∀ other, other ≠ id → t'.files.rows.filter (·.value.repositoryId == other) =
        t.files.rows.filter (·.value.repositoryId == other)) ∧
      again.result = told ∧ again.store = { s with tables := some t'' } ∧
      t'' = { t' with files := t''.files } ∧ t''.files.rows = t'.files.rows ∧
      again.store.files id = .ok after ∧
      ∀ {τ : Type} (put : RepositoryFile → τ → τ) (x : τ),
        ingest (refusing reason? fun f x => .ok (put f x)) id l x =
          ⟨files.foldl (fun x f => put f x) x, refusalWarnings reason? (retainedFiles id l.members),
            told⟩ := by
  intro files told outcome again
  have hfiles : ∀ f ∈ files, f.repositoryId = id := by
    intro f hf
    obtain ⟨m, -, rfl⟩ := List.mem_map.mp (List.mem_of_mem_filter hf)
    rfl
  have hlater := h.putFiles hfiles
  have hlast := hlater.putFiles hfiles
  obtain ⟨before, hread, -, -, hbefore⟩ := h.valid.filesOf_eq_ok h.numbered
  obtain ⟨after, hread', hsorted, hpaths, hafter⟩ := hlater.valid.filesOf_eq_ok h.numbered
  have houtcome := ingest_eq h reason?
  have hstore : outcome.store = { s with tables := some (t.putFiles files) } :=
    congrArg (·.store) houtcome
  have hagain : again = ingest (refusing reason? storeFile) id l
      { s with tables := some (t.putFiles files) } := by
    rw [← hstore]
  replace hagain := hagain.trans (ingest_eq hlater reason?)
  refine ⟨before, after, t.putFiles files, (t.putFiles files).putFiles files,
    congrArg (·.result) houtcome, hstore, h.files_eq.trans hread, ?_,
    fun f => mem_filesOf_putFiles h reason? hbefore hafter, hsorted, hpaths, rfl,
    fun _ => Tables.rows_putFiles_other hfiles, congrArg (·.result) hagain,
    congrArg (·.store) hagain, rfl, h.valid.files.rows_putAll_again files, ?_, fun put x => ?_⟩
  · rw [hstore]
    exact hlater.files_eq.trans hread'
  · rw [hagain]
    exact hlast.files_eq.trans ((h.valid.filesOf_putFiles_again files id).trans hread')
  · exact Archive.ingest_refusing (P := fun _ => True) reason? h.names
      (fun f _ x _ => ⟨rfl, trivial⟩) trivial

/-! ### An archive with two members at one path -/

/-- Calls that leave a repository with two files. -/
def twoFilesCalls : List Store.Call :=
  [⟨[], .insertRepository ⟨none, "x", "a/x", none, [], none, none⟩⟩,
    ⟨[], .insertFile ⟨1, "a.go", "a.go", "go", "old", 3⟩⟩,
    ⟨[], .insertFile ⟨1, "b.md", "b.md", "markdown", "kept", 4⟩⟩]

/-- Members of which two lead to one path, one is no file and one is excluded. -/
def repeatedMembers : List Member :=
  [⟨"x-1/a.go", true, [97]⟩, ⟨"x-1/docs", false, []⟩, ⟨"x-1/vendor/c.go", true, [98]⟩,
    ⟨"/x-2//a.go/", true, [99]⟩, ⟨"x-1/d.go", true, [100]⟩]

/-- Refuses one path. -/
def refusesLast (path : Text) : Option Text := if path = "d.go" then some "disk full" else none

private theorem repeated_canIngest :
    CanIngest (Store.ready.after twoFilesCalls) (Store.ready.after twoFilesCalls).contents 1
      repeatedMembers where
  tables := (Store.ready_after twoFilesCalls).1
  valid := (Store.ready_after twoFilesCalls).2
  owner := by decide +kernel
  number := by decide
  writes := by decide +kernel
  reads := by decide +kernel
  names := by decide +kernel
  sizes := by decide +kernel

/-- Of two members at one path the later one is stored, beside a file that was there before. -/
theorem ingest_stores_last_retained_of_repeated :
    let outcome := ingest (refusing refusesLast storeFile) 1 ⟨repeatedMembers, none⟩
      (Store.ready.after twoFilesCalls)
    outcome.result = .ok 2 ∧ ∃ after, outcome.store.files 1 = .ok after ∧
      ⟨1, "a.go", "a.go", "go", "c", 1⟩ ∈ after ∧
      ⟨1, "b.md", "b.md", "markdown", "kept", 4⟩ ∈ after ∧ ∀ f ∈ after, f.path ≠ "d.go" := by
  intro outcome
  obtain ⟨before, after, t', t'', hresult, -, hbefore, hread, hafter, -⟩ :=
    ingest_stores_last_retained (l := ⟨repeatedMembers, none⟩) repeated_canIngest refusesLast
  have hcount : (accepted refusesLast (retainedFiles 1 repeatedMembers)).length = 2 := by
    decide +kernel
  have hretained (m : Member) (path : Text) : IsRetained m path ↔
      isRetained m = true ∧ Archive.repositoryPath m.name = path := Archive.isRetained_at_iff
  obtain ⟨fs, hfs, -, -, hthere⟩ :=
    repeated_canIngest.valid.filesOf_eq_ok repeated_canIngest.numbered
  obtain rfl : before = fs :=
    Except.ok.inj (hbefore.symm.trans (repeated_canIngest.files_eq.trans hfs))
  refine ⟨hresult.trans (congrArg Except.ok hcount), after, hread, (hafter _).mpr (.inl ?_),
    (hafter _).mpr (.inr ⟨?_, ?_⟩), ?_⟩
  · refine ⟨by decide, ⟨"/x-2//a.go/", true, [99]⟩,
      ⟨repeatedMembers.take 3, repeatedMembers.drop 4, rfl, ?_, ?_⟩, by decide +kernel⟩
    · rw [hretained]
      decide +kernel
    · simp only [hretained]
      decide +kernel
  · exact (hthere _).mpr ⟨⟨1, "b.md", "b.md", "markdown", "kept", 4⟩, by decide +kernel, rfl, rfl⟩
  · simp only [hretained]
    decide +kernel
  · intro f hf hpath
    rcases (hafter f).mp hf with ⟨haccepted, -⟩ | ⟨hf, -⟩
    · rw [hpath] at haccepted
      exact absurd haccepted (by decide)
    · obtain ⟨g, hg, -, rfl⟩ := (hthere f).mp hf
      have hpaths : ∀ g ∈ (Store.ready.after twoFilesCalls).contents.files.values,
          g.path ≠ "d.go" := by
        decide +kernel
      exact hpaths g hg hpath

end Sync

end ProviderCatalog
