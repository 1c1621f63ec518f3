import ProviderCatalog.Archive.Ingest
import ProviderCatalog.Proofs.Text.Lines
import ProviderCatalog.Proofs.Text.Pieces
import ProviderCatalog.Proofs.Computation
import ProviderCatalog.Proofs.Validation.Names

/-!
# The files that are taken out of an archive

The name of a member leads to a path if, up to slashes around both, it is the path below a first
directory. A regular file of an archive is retained if its name leads to a path outside the excluded
directories. A walk hands the files of the retained members to the store one after the other, in the
order of the archive, and counts those that the store takes; the others are told by warnings. What
every stored file does to the store, the whole walk does, wherever it ends. Whether it comes to the
end depends on the archive only.

## Main definitions

* `LeadsTo`: the name of a member and the path that it leads to.
* `isReadable`: whether walks over an archive come to its end.
* `IsRetained`, `IsLastRetained`: the members that are retained, and the last one at a path.
* `storedFile`, `retainedFiles`: the files that they are stored as.
* `refusing`: a store that refuses the files at some paths.

## Main results

* `LeadsTo.repositoryPath_eq`, `leadsTo_repositoryPath`: the path that a name leads to is the one
  that is taken from it.
* `baseName_ne_nil`, `fileType_named`: the name and the type of a file.
* `file?_eq`, `file?_owner`: the file of a member belongs to the repository.
* `ingestBytes_moves`: a walk moves the store along a relation if every stored file does.
* `ingestBytes_isOk`: a walk comes to the end of an archive that can be read.
* `ingestBytes_agree`: walks for two repositories end alike if every file is stored alike.
* `isRetained_iff`: which members are retained.
* `file?_eq_of_unicode`: the file of a member whose name can be encoded.
* `ingest_refusing`: what a walk hands to the store, counts and tells.
-/

namespace ProviderCatalog

variable {name path : Text}

/-- The first occurrence of a code point cuts a text in two. -/
theorem Text.cut?_eq_some {x : CodePoint} {t a b : Text} :
    cut? x t = some (a, b) ↔ t = a ++ x :: b ∧ x ∉ a := by
  induction t generalizing a with
  | nil => simp [cut?]
  | cons y t ih =>
    rw [cut?]
    by_cases hy : y = x
    · subst hy
      cases a with
      | nil => simp
      | cons z a =>
        simp only [BEq.rfl, if_true, Option.some.injEq, Prod.mk.injEq, List.cons_append,
          List.cons.injEq, List.mem_cons, not_or]
        tauto
    · cases a with
      | nil => simp [hy]
      | cons z a =>
        have hbeq : (y == x) = false := beq_eq_false_iff_ne.mpr hy
        rw [hbeq, if_neg Bool.false_ne_true, Option.map_eq_some_iff]
        constructor
        · rintro ⟨⟨a', b'⟩, hcut, hsides⟩
          cases hsides
          obtain ⟨rfl, hfree⟩ := ih.mp hcut
          exact ⟨rfl, by simpa [Ne.symm hy] using hfree⟩
        · rintro ⟨hsplit, hfree⟩
          obtain ⟨rfl, rfl⟩ := List.cons.inj hsplit
          exact ⟨(a, b), ih.mpr ⟨rfl, fun hx => hfree (List.mem_cons_of_mem _ hx)⟩, rfl⟩

namespace Archive

theorem isSlash_iff {x : CodePoint} : isSlash x = true ↔ x = .scalar '/' := beq_iff_eq

/-- A name that leads to a path: it has a first directory and then the path, with slashes between
them and maybe around them, and the path neither begins nor ends with a slash. -/
structure LeadsTo (name path : Text) : Prop where
  split : ∃ before directory between after : Text,
    name = before ++ (directory ++ (between ++ (path ++ after))) ∧
      (∀ x ∈ before ++ between ++ after, isSlash x = true) ∧ between ≠ [] ∧
      (∀ x ∈ directory, isSlash x = false) ∧ directory ≠ []
  begins : ∀ x ∈ path.head?, isSlash x = false
  ends : ∀ x ∈ path.getLast?, isSlash x = false

theorem LeadsTo.repositoryPath_eq (h : LeadsTo name path) (hne : path ≠ []) :
    repositoryPath name = path := by
  obtain ⟨before, directory, between, after, rfl, hslashes, hbetween, hplain, hdirectory⟩ := h.split
  obtain ⟨hslashes, hafter⟩ := List.forall_mem_append.mp hslashes
  obtain ⟨hbefore, hbetween'⟩ := List.forall_mem_append.mp hslashes
  obtain ⟨x, between, rfl⟩ := List.exists_cons_of_ne_nil hbetween
  obtain ⟨hx, hbetween'⟩ := List.forall_mem_cons.mp hbetween'
  have hleft (rest : Text) : Text.dropLeft isSlash (before ++ (directory ++ rest)) =
      directory ++ rest := by
    rw [Text.dropLeft, List.dropWhile_append_of_pos hbefore]
    refine Text.dropLeft_eq_self_iff.mpr ?_
    rw [List.head?_append_of_ne_nil _ hdirectory]
    exact fun y hy => hplain y (List.mem_of_mem_head? hy)
  have hcut : Text.cut? (.scalar '/')
      (directory ++ (x :: between ++ (path ++ after))) =
        some (directory, between ++ (path ++ after)) := by
    rw [isSlash_iff.mp hx]
    exact Text.cut?_eq_some.mpr ⟨rfl, fun hmem => absurd (hplain _ hmem) (by decide)⟩
  rw [repositoryPath, hleft, hcut]
  exact Text.dropEnds_append hbetween' (Text.dropEnds_eq_self_iff.mpr ⟨h.begins, h.ends⟩) hne hafter

theorem leadsTo_repositoryPath (hne : repositoryPath name ≠ []) :
    LeadsTo name (repositoryPath name) := by
  unfold repositoryPath at hne ⊢
  split at hne
  · rename_i directory below hcut
    obtain ⟨hsplit, hfree⟩ := Text.cut?_eq_some.mp hcut
    obtain ⟨before, after, hbelow, hbefore, hafter⟩ := Text.exists_dropEnds isSlash below
    have hname : name = name.takeWhile isSlash ++ Text.dropLeft isSlash name :=
      List.takeWhile_append_dropWhile.symm
    have hhead : ∀ x ∈ (Text.dropLeft isSlash name).head?, isSlash x = false :=
      Text.dropLeft_eq_self_iff.mp (List.dropWhile_idempotent isSlash name)
    obtain ⟨hbegins, hends⟩ :=
      Text.dropEnds_eq_self_iff.mp (Text.dropEnds_dropEnds isSlash below)
    refine ⟨⟨name.takeWhile isSlash, directory, .scalar '/' :: before, after, ?_, ?_,
      List.cons_ne_nil _ _, ?_, ?_⟩, hbegins, hends⟩
    · rw [List.cons_append, ← hbelow, ← hsplit]
      exact hname
    · refine List.forall_mem_append.mpr ⟨List.forall_mem_append.mpr ⟨?_, ?_⟩, hafter⟩
      · exact fun x hx => List.mem_takeWhile_imp hx
      · exact List.forall_mem_cons.mpr ⟨rfl, hbefore⟩
    · exact fun x hx => Bool.eq_false_iff.mpr fun hslash => hfree (isSlash_iff.mp hslash ▸ hx)
    · rintro rfl
      rw [hsplit] at hhead
      exact absurd (hhead _ rfl) (by decide)
  · exact absurd rfl hne

/-! ### Paths, names and types -/

theorem repositoryPath_subset (name : Text) : repositoryPath name ⊆ name := by
  unfold repositoryPath
  split
  · rename_i directory below hcut
    obtain ⟨hsplit, -⟩ := Text.cut?_eq_some.mp hcut
    have hbelow : below ⊆ Text.dropLeft isSlash name := by
      rw [hsplit]
      exact fun x hx => List.mem_append_right _ (List.mem_cons_of_mem _ hx)
    exact List.Subset.trans (Text.dropEnds_subset isSlash below)
      (List.Subset.trans hbelow (List.dropWhile_sublist _).subset)
  · exact List.nil_subset _

theorem baseName_subset (path : Text) : baseName path ⊆ path := by
  intro x hx
  exact List.mem_reverse.mp ((List.takeWhile_sublist _).subset (List.mem_reverse.mp hx))

/-- A path that does not end with a slash has a name. -/
theorem baseName_ne_nil (hne : path ≠ []) (hlast : ∀ x ∈ path.getLast?, isSlash x = false) :
    baseName path ≠ [] := by
  obtain ⟨x, reversed, hreversed⟩ :=
    List.exists_cons_of_ne_nil (fun h => hne (List.reverse_eq_nil_iff.mp h))
  have hx : isSlash x = false := by
    refine hlast x ?_
    rw [← List.head?_reverse, hreversed]
    rfl
  have hkept : x ≠ .scalar '/' := fun h => absurd (isSlash_iff.mpr h) (by simp [hx])
  simp [baseName, hreversed, hkept]

theorem fileType_mem (name : Text) :
    fileType name ∈ otherType :: fileTypes.map (·.2) := by
  unfold fileType
  cases hlookup : fileTypes.lookup (extension name.lower) with
  | none => exact List.mem_cons_self
  | some type =>
    obtain ⟨before, after, htypes, -⟩ := List.lookup_eq_some_iff.mp hlookup
    have hmem : (extension name.lower, type) ∈ fileTypes := by
      rw [htypes]
      exact List.mem_append_right _ List.mem_cons_self
    exact List.mem_cons_of_mem _ (List.mem_map_of_mem hmem)

/-- The types of files can be encoded and are not empty. -/
theorem fileType_named (name : Text) :
    (fileType name).isUnicode = true ∧ fileType name ≠ [] := by
  have hall : ∀ type ∈ otherType :: fileTypes.map (·.2), type.isUnicode = true ∧ type ≠ [] := by
    decide
  exact hall _ (fileType_mem name)

end Archive

end ProviderCatalog

namespace ProviderCatalog.Archive

variable {σ : Type} {id : Int}

/-- The files of a repository differ from those of another by the number of the repository only. -/
theorem file?_eq (id : Int) (m : Member) :
    file? id m = (file? 0 m).map (·.map fun f => { f with repositoryId := id }) := by
  unfold file?
  dsimp only
  split
  · rfl
  · refine congrArg some ?_
    unfold RepositoryFile.make
    dsimp only
    generalize (Checked.nonEmptyText _).within _ = path, (Checked.nonEmptyText _).within _ = name
    cases path <;> cases name <;> rfl

theorem file?_owner {m : Member} {f : RepositoryFile} (h : file? id m = some (.ok f)) :
    f.repositoryId = id := by
  rw [file?_eq] at h
  obtain ⟨_ | g, -, hg⟩ := Option.map_eq_some_iff.mp h
  · exact nomatch hg
  · cases hg
    rfl

variable {insert : RepositoryFile → σ → Except Text σ}

section Moving

variable {R : σ → σ → Prop} [IsPreorder σ R]

private theorem ingestFrom_moves
    (hinsert : ∀ f s s', f.repositoryId = id → insert f s = .ok s' → R s s')
    (failure : Option ReadFailure) (stored : Nat) (warnings : List Text) (s : σ)
    (members : List Member) :
    R s (ingestFrom insert id failure stored warnings s members).store := by
  induction members generalizing stored warnings s with
  | nil => exact Std.Refl.refl s
  | cons m members ih =>
    rw [ingestFrom]
    split
    · exact ih stored warnings s
    · exact Std.Refl.refl s
    · rename_i f hf
      split
      · rename_i s' hs'
        exact IsTrans.trans _ _ _ (hinsert f s s' (file?_owner hf) hs') (ih _ _ s')
      · exact ih _ _ s

/-- A walk moves the store along a relation if every stored file does. -/
theorem ingestBytes_moves
    (hinsert : ∀ f s s', f.repositoryId = id → insert f s = .ok s' → R s s') (data : Bytes)
    (s : σ) : R s (ingestBytes insert id data s).store := by
  unfold ingestBytes
  split
  · exact ingestFrom_moves hinsert _ _ _ _ _
  · exact Std.Refl.refl s

end Moving

/-! ### The end of a walk -/

/-- Whether an archive can be read: reading it does not fail, and the name of no member is
invalid. -/
def isReadable (data : Bytes) : Bool :=
  match listing data with
  | .ok l => l.failure.isNone && l.members.all fun m => (file? 0 m).all (·.isOk)
  | .error _ => false

private theorem ingestFrom_isOk (insert : RepositoryFile → σ → Except Text σ) (id : Int)
    (failure : Option ReadFailure) (stored : Nat) (warnings : List Text) (s : σ)
    (members : List Member) :
    (ingestFrom insert id failure stored warnings s members).result.isOk =
      (failure.isNone && members.all fun m => (file? 0 m).all (·.isOk)) := by
  induction members generalizing stored warnings s with
  | nil => cases failure <;> rfl
  | cons m members ih =>
    rw [ingestFrom, file?_eq id m, List.all_cons]
    cases file? 0 m with
    | none => exact ih stored warnings s
    | some r =>
      cases r with
      | error e => exact (Bool.and_false _).symm
      | ok f =>
        dsimp only [Option.map_some, Except.map]
        split
        · exact ih _ _ _
        · exact ih _ _ _

/-- A walk comes to the end of an archive that can be read, and of no other, whatever the store does
with the files. -/
theorem ingestBytes_isOk (insert : RepositoryFile → σ → Except Text σ) (id : Int) (data : Bytes)
    (s : σ) : (ingestBytes insert id data s).result.isOk = isReadable data := by
  rw [ingestBytes, isReadable]
  cases listing data with
  | ok l => exact ingestFrom_isOk insert id l.failure 0 [] s l.members
  | error e => rfl

/-! ### Two walks -/

/-- Walks that end alike: with stores in a relation, and with the same warnings and results. -/
structure Outcome.Alike {τ : Type} (J : σ → τ → Prop) (o : Outcome σ) (o' : Outcome τ) : Prop where
  stores : J o.store o'.store
  warnings : o.warnings = o'.warnings
  result : o.result = o'.result

section Alike

variable {τ : Type} {id' : Int} {J : σ → τ → Prop} {insert' : RepositoryFile → τ → Except Text τ}

private theorem ingestFrom_agree
    (hinsert : ∀ (f : RepositoryFile) s t, J s t →
      Agree J (insert { f with repositoryId := id } s) (insert' { f with repositoryId := id' } t))
    (failure : Option ReadFailure) (stored : Nat) (warnings : List Text) {s : σ} {t : τ}
    (h : J s t) (members : List Member) :
    (ingestFrom insert id failure stored warnings s members).Alike J
      (ingestFrom insert' id' failure stored warnings t members) := by
  induction members generalizing stored warnings s t with
  | nil => exact ⟨h, rfl, rfl⟩
  | cons m members ih =>
    rw [ingestFrom, ingestFrom, file?_eq id m, file?_eq id' m]
    cases file? 0 m with
    | none => exact ih stored warnings h
    | some r =>
      cases r with
      | error e => exact ⟨h, rfl, rfl⟩
      | ok f =>
        have hstep := hinsert f s t h
        simp only [Option.map_some, Except.map]
        revert hstep
        generalize insert { f with repositoryId := id } s = a,
          insert' { f with repositoryId := id' } t = b
        rintro (hs | reason)
        · exact ih (stored + 1) warnings hs
        · exact ih stored (refusalWarning f.path reason :: warnings) h

/-- Walks over one archive for two repositories end alike if every file is stored alike. -/
theorem ingestBytes_agree
    (hinsert : ∀ (f : RepositoryFile) s t, J s t →
      Agree J (insert { f with repositoryId := id } s) (insert' { f with repositoryId := id' } t))
    (data : Bytes) {s : σ} {t : τ} (h : J s t) :
    (ingestBytes insert id data s).Alike J (ingestBytes insert' id' data t) := by
  unfold ingestBytes
  cases listing data with
  | ok l => exact ingestFrom_agree hinsert _ _ _ h _
  | error e => exact ⟨h, rfl, rfl⟩

end Alike

end ProviderCatalog.Archive

namespace ProviderCatalog.Archive

variable {σ : Type} {m : Member} {path : Text}

/-! ### Members that are retained -/

/-- A member is retained at a path: it is a regular file, and its name leads to the path, which is
not empty and passes through no excluded directory. -/
structure IsRetained (m : Member) (path : Text) : Prop where
  isFile : m.isFile = true
  nonempty : path ≠ []
  leads : LeadsTo m.name path
  allowed : ∀ segment ∈ path.splitOn (.scalar '/'), segment ∉ excludedDirectories

/-- Whether a member is retained at some path. -/
def isRetained (m : Member) : Bool := m.isFile && isAsked m.name

theorem isRetained_iff : isRetained m = true ↔ IsRetained m (repositoryPath m.name) := by
  have hallowed : isExcluded (repositoryPath m.name) = false ↔
      ∀ segment ∈ (repositoryPath m.name).splitOn (.scalar '/'),
        segment ∉ excludedDirectories := by
    simp [isExcluded, List.any_eq_false]
  constructor
  · intro h
    simp only [isRetained, isAsked, isKept, Bool.and_eq_true, Bool.not_eq_true',
      List.isEmpty_eq_false_iff] at h
    exact ⟨h.1, h.2.1, leadsTo_repositoryPath h.2.1, hallowed.mp h.2.2⟩
  · intro h
    simp [isRetained, isAsked, isKept, h.isFile, h.nonempty, hallowed.mpr h.allowed]

theorem IsRetained.path_eq (h : IsRetained m path) : repositoryPath m.name = path :=
  h.leads.repositoryPath_eq h.nonempty

theorem isRetained_at_iff :
    IsRetained m path ↔ isRetained m = true ∧ repositoryPath m.name = path := by
  constructor
  · intro h
    exact ⟨isRetained_iff.mpr (h.path_eq ▸ h), h.path_eq⟩
  · rintro ⟨h, rfl⟩
    exact isRetained_iff.mp h

/-- The last member of an archive that is retained at a path. -/
def IsLastRetained (ms : List Member) (path : Text) (m : Member) : Prop :=
  ∃ earlier later, ms = earlier ++ m :: later ∧ IsRetained m path ∧
    ∀ m' ∈ later, ¬IsRetained m' path

/-- The file that a retained member is stored as: with the last segment of its path as its name,
the type of its extension, and its decoded content and the number of its bytes. -/
def storedFile (id : Int) (m : Member) : RepositoryFile where
  repositoryId := id
  path := repositoryPath m.name
  name := baseName (repositoryPath m.name)
  type := fileType (repositoryPath m.name)
  content := .ofUtf8Lossy m.content
  size := m.content.length

/-- The files of the retained members, in the order of the archive. -/
def retainedFiles (id : Int) (ms : List Member) : List RepositoryFile :=
  (ms.filter isRetained).map (storedFile id)

/-- A member has a file if it is retained, unless no file can be made of its path and name. -/
theorem file?_eq_ite (id : Int) (m : Member) :
    file? id m =
      if isRetained m then
        some (RepositoryFile.make id (repositoryPath m.name) (baseName (repositoryPath m.name))
          (fileType (repositoryPath m.name)) (.ofUtf8Lossy m.content) m.content.length)
      else none := by
  rw [file?, isRetained, isAsked]
  cases m.isFile <;> cases isKept (repositoryPath m.name) <;> rfl

/-- A member whose name can be encoded has a file if it is retained, and none otherwise. -/
theorem file?_eq_of_unicode (id : Int) (h : m.name.isUnicode = true) :
    file? id m = if isRetained m then some (.ok (storedFile id m)) else none := by
  rw [file?_eq_ite]
  cases hretained : isRetained m with
  | false => rfl
  | true =>
    have hmember := isRetained_iff.mp hretained
    have hpath := Text.isUnicode_of_subset (repositoryPath_subset m.name) h
    have hname := Text.isUnicode_of_subset (baseName_subset (repositoryPath m.name)) hpath
    rw [RepositoryFile.make_eq hpath hmember.nonempty hname
      (baseName_ne_nil hmember.nonempty hmember.leads.ends)]
    rfl

/-- Decoding leaves no lone surrogate. -/
theorem isUnicode_ofUtf8Lossy (bs : Bytes) : (Text.ofUtf8Lossy bs).isUnicode = true := by
  refine Text.isUnicode_iff.mpr fun x hx => ?_
  obtain ⟨p, -, rfl⟩ := List.mem_map.mp hx
  cases p <;> rfl

/-! ### Walks -/

/-- A store that refuses the files at some paths, for given reasons. -/
def refusing (reason? : Text → Option Text) (insert : RepositoryFile → σ → Except Text σ)
    (f : RepositoryFile) (s : σ) : Except Text σ :=
  match reason? f.path with
  | some reason => .error reason
  | none => insert f s

/-- The files among some that such a store does not refuse. -/
def accepted (reason? : Text → Option Text) (fs : List RepositoryFile) : List RepositoryFile :=
  fs.filter fun f => (reason? f.path).isNone

/-- The warnings about the files among some that such a store refuses. -/
def refusalWarnings (reason? : Text → Option Text) (fs : List RepositoryFile) : List Text :=
  fs.filterMap fun f => (reason? f.path).map (refusalWarning f.path)

variable {id : Int} {insert : RepositoryFile → σ → Except Text σ} {put : RepositoryFile → σ → σ}
  {P : σ → Prop} {s : σ}

private theorem ingestFrom_refusing (reason? : Text → Option Text) {ms : List Member}
    (hnames : ∀ m ∈ ms, m.name.isUnicode = true)
    (hinsert : ∀ f ∈ retainedFiles id ms, ∀ s, P s → insert f s = .ok (put f s) ∧ P (put f s))
    (failure : Option ReadFailure) (stored : Nat) (warnings : List Text) (hs : P s) :
    ingestFrom (refusing reason? insert) id failure stored warnings s ms =
      { store := (accepted reason? (retainedFiles id ms)).foldl (fun s f => put f s) s
        warnings := warnings.reverse ++ refusalWarnings reason? (retainedFiles id ms)
        result := ending failure (stored + (accepted reason? (retainedFiles id ms)).length) } := by
  induction ms generalizing stored warnings s with
  | nil => simp [ingestFrom, retainedFiles, accepted, refusalWarnings]
  | cons m ms ih =>
    obtain ⟨hname, hnames⟩ := List.forall_mem_cons.mp hnames
    rw [ingestFrom, file?_eq_of_unicode id hname]
    cases hretained : isRetained m with
    | false =>
      have hfiles : retainedFiles id (m :: ms) = retainedFiles id ms := by
        rw [retainedFiles, List.filter_cons_of_neg (by simp [hretained]), retainedFiles]
      rw [hfiles] at hinsert ⊢
      exact ih hnames hinsert stored warnings hs
    | true =>
      have hfiles : retainedFiles id (m :: ms) = storedFile id m :: retainedFiles id ms := by
        rw [retainedFiles, List.filter_cons_of_pos hretained, List.map_cons, retainedFiles]
      rw [hfiles] at hinsert ⊢
      obtain ⟨hfile, hinsert⟩ := List.forall_mem_cons.mp hinsert
      rw [if_pos rfl]
      dsimp only
      cases hreason : reason? (storedFile id m).path with
      | some reason =>
        have hstep : refusing reason? insert (storedFile id m) s = .error reason := by
          rw [refusing, hreason]
        rw [hstep]
        refine (ih hnames hinsert _ _ hs).trans ?_
        simp [accepted, refusalWarnings, hreason]
      | none =>
        obtain ⟨hput, hs'⟩ := hfile s hs
        have hstep : refusing reason? insert (storedFile id m) s =
            .ok (put (storedFile id m) s) := by
          rw [refusing, hreason, hput]
        rw [hstep]
        refine (ih hnames hinsert _ _ hs').trans ?_
        simp [accepted, refusalWarnings, hreason, Nat.add_assoc, Nat.add_comm 1]

/-- A walk over an archive whose names can be encoded hands every retained file to the store, in
the order of the archive, counts those that are not refused and tells the others. -/
theorem ingest_refusing (reason? : Text → Option Text) {l : Listing}
    (hnames : ∀ m ∈ l.members, m.name.isUnicode = true)
    (hinsert : ∀ f ∈ retainedFiles id l.members, ∀ s, P s →
      insert f s = .ok (put f s) ∧ P (put f s)) (hs : P s) :
    ingest (refusing reason? insert) id l s =
      { store := (accepted reason? (retainedFiles id l.members)).foldl (fun s f => put f s) s
        warnings := refusalWarnings reason? (retainedFiles id l.members)
        result := ending l.failure (accepted reason? (retainedFiles id l.members)).length } := by
  simpa [ingest] using ingestFrom_refusing reason? hnames hinsert l.failure 0 [] hs

end ProviderCatalog.Archive
