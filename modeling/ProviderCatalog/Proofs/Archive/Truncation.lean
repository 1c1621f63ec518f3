import ProviderCatalog.Proofs.Archive.Cutting
import ProviderCatalog.Proofs.Archive.Retained

/-!
# Walks over archives that are cut off

A walk over a compressed archive that is cut off stores the first of the files that a walk over the
whole archive stores, each of them whole. If some are missing, it ends with damage, but not at every
cut. A cut that leaves the beginning of a member's header behind other members counts as the end of
the archive, and the walk returns the number of the files that it has stored. A cut within the map
of a sparse file, and one within the first bytes of the compressed data, end the walk with failures
of their own.

The walks are compared if no header for the next one has a negative size: such a header takes its
data from what happens to be decoded already.

## Main definitions

* `archiveFiles`: the files that a walk hands to the store.
* `storeAll`: what a store holds after files that it may refuse.
* `IsForward`: no header for the next one has a negative size.
* `EndsInLaterHeader`, `EndsInMap`, `EndsInStreamHeader`: cuts that are not told as damage.

## Main results

* `listing_of_cut`: the listing of an archive that is cut off.
* `ingestBytes_of_cut`: a walk over an archive that is cut off.
* `ingestBytes_overlooks_cut`: a cut that is not noticed.
-/

namespace ProviderCatalog.Archive

variable {σ : Type} {id : Int} {insert : RepositoryFile → σ → Except Text σ}

/-! ### Files of a walk -/

/-- The files that a walk over a compressed archive hands to the store. -/
def archiveFiles (id : Int) (data : Bytes) : List RepositoryFile :=
  match listing data with
  | .ok l => retainedFiles id l.members
  | .error _ => []

/-- What a store holds after some files, of which it may refuse some. -/
def storeAll (insert : RepositoryFile → σ → Except Text σ) (fs : List RepositoryFile) (s : σ) : σ :=
  fs.foldl (fun s f => (insert f s).toOption.getD s) s

/-- A member that does not end a walk has a file if it is retained, and none otherwise. -/
theorem file?_eq_of_isOk {m : Member} (h : (file? 0 m).all (·.isOk) = true) :
    file? id m = if isRetained m then some (.ok (storedFile id m)) else none := by
  rw [file?_eq id m]
  revert h
  rw [file?_eq_ite]
  cases hretained : isRetained m with
  | false => exact fun _ => rfl
  | true =>
    have hmember := isRetained_iff.mp hretained
    have hname := baseName_ne_nil hmember.nonempty hmember.leads.ends
    rw [RepositoryFile.make, Checked.nonEmptyText_eq hmember.nonempty,
      Checked.nonEmptyText_eq hname]
    cases (repositoryPath m.name).isUnicode with
    | false =>
      cases (baseName (repositoryPath m.name)).isUnicode <;>
        exact fun h => absurd h Bool.false_ne_true
    | true =>
      cases (baseName (repositoryPath m.name)).isUnicode with
      | false => exact fun h => absurd h Bool.false_ne_true
      | true => exact fun _ => rfl

/-- A walk over members that do not end it. -/
theorem ingestFrom_of_isOk {ms : List Member}
    (h : ∀ m ∈ ms, (file? 0 m).all (·.isOk) = true) (failure : Option ReadFailure) (stored : Nat)
    (warnings : List Text) (s : σ) :
    let o := ingestFrom insert id failure stored warnings s ms
    o.store = storeAll insert (retainedFiles id ms) s ∧ ∃ n, o.result = ending failure n := by
  induction ms generalizing stored warnings s with
  | nil => exact ⟨rfl, stored, rfl⟩
  | cons m ms ih =>
    obtain ⟨hm, hms⟩ := List.forall_mem_cons.mp h
    rw [ingestFrom, file?_eq_of_isOk hm]
    cases hretained : isRetained m with
    | false =>
      rw [retainedFiles, List.filter_cons_of_neg (by simp [hretained])]
      exact ih hms stored warnings s
    | true =>
      rw [retainedFiles, List.filter_cons_of_pos hretained, List.map_cons, storeAll,
        List.foldl_cons, if_pos rfl]
      dsimp only
      cases insert (storedFile id m) s with
      | ok t => exact ih hms _ _ t
      | error reason => exact ih hms _ _ s

/-- A walk that comes to its end has gone through an archive that can be read to its end. -/
theorem ingestBytes_of_isOk {data : Bytes} {s : σ}
    (h : (ingestBytes insert id data s).result.isOk = true) :
    ∃ l, listing data = .ok l ∧ l.failure = none ∧
      ∀ m ∈ l.members, (file? 0 m).all (·.isOk) = true := by
  rw [ingestBytes_isOk, isReadable] at h
  split at h
  · rename_i l hl
    rw [Bool.and_eq_true, Option.isNone_iff_eq_none, List.all_eq_true] at h
    exact ⟨l, hl, h⟩
  · exact absurd h Bool.false_ne_true

/-! ### Archives that are cut off -/

/-- No header for the next one in the decoded bytes of a compressed archive has a negative size. -/
def IsForward (data : Bytes) : Prop := ∀ s, Gzip.decode data = .ok s → Tar.IsForward s.data

instance : DecidablePred IsForward := fun data =>
  match h : Gzip.decode data with
  | .ok s => decidable_of_iff (Tar.IsForward s.data)
    ⟨fun hs _ ht => Except.ok.inj (h.symm.trans ht) ▸ hs, fun hs => hs s h⟩
  | .error _ => .isTrue fun _ ht => nomatch h.symm.trans ht

/-- The decoded bytes of a compressed archive end within the header of a member behind other
members. -/
def EndsInLaterHeader (data : Bytes) : Prop :=
  ∃ s, Gzip.decode data = .ok s ∧ Tar.EndsLater (Tar.lastPlace isAsked s)

/-- The decoded bytes of a compressed archive end within the map of a sparse file, where the reader
takes bytes that are not there for a number or a line. -/
def EndsInMap (data : Bytes) (f : ReadFailure) : Prop :=
  ∃ s, Gzip.decode data = .ok s ∧ Tar.EndsInMap (Tar.lastPlace isAsked s) f

/-- The compressed data ends within its own header. -/
def EndsInStreamHeader (data : Bytes) : Prop := Gzip.body data = .error .cutOff

theorem listing_eq_ok {data : Bytes} {l : Listing} (h : listing data = .ok l) :
    ∃ s, Gzip.decode data = .ok s ∧ Tar.list isAsked s = l := by
  rw [listing] at h
  split at h
  · rename_i s hs
    exact ⟨s, hs, Except.ok.inj h⟩
  · exact nomatch h
  · exact nomatch h

/-- An archive that has no listing is none that can be decompressed. -/
theorem listing_eq_error {data : Bytes} {f : ReadFailure} (h : listing data = .error f) :
    ∃ fault, Gzip.decode data = .error fault ∧
      (f = .damaged ∧ ¬EndsInStreamHeader data ∨ f = .headerCut ∧ EndsInStreamHeader data) := by
  rw [listing] at h
  split at h
  · exact nomatch h
  · rename_i hfault
    refine ⟨_, hfault, .inl ⟨(Except.error.inj h).symm, fun hends => ?_⟩⟩
    exact nomatch (except_map_eq_error.mp hfault).symm.trans hends
  · rename_i hfault
    exact ⟨_, hfault, .inr ⟨(Except.error.inj h).symm, except_map_eq_error.mp hfault⟩⟩

theorem not_endsInStreamHeader {data : Bytes} {l : Listing} (h : listing data = .ok l) :
    ¬EndsInStreamHeader data := by
  intro hends
  obtain ⟨s, hs, -⟩ := listing_eq_ok h
  obtain ⟨b, hb, -⟩ := except_map_eq_ok.mp hs
  exact nomatch hb.symm.trans hends

theorem EndsInMap.isMapEnd {data : Bytes} {f : ReadFailure} (h : EndsInMap data f) :
    f.IsMapEnd := by
  obtain ⟨s, -, general, c, -, -, hf, -⟩ := h
  exact hf

theorem ingestBytes_of_error (insert : RepositoryFile → σ → Except Text σ) (id : Int) (s : σ)
    {data : Bytes} {f : ReadFailure} (h : listing data = .error f) :
    ingestBytes insert id data s = ⟨s, [], .error (.unread f)⟩ := by
  rw [ingestBytes, h]

theorem ingestBytes_of_ok (insert : RepositoryFile → σ → Except Text σ) (id : Int) (s : σ)
    {data : Bytes} {l : Listing} (h : listing data = .ok l) :
    ingestBytes insert id data s = ingest insert id l s := by
  rw [ingestBytes, h]

theorem ingestBytes_of_listing (insert : RepositoryFile → σ → Except Text σ) (id : Int) (s : σ)
    {data : Bytes} {l : Listing} (h : listing data = .ok l)
    (hfiles : ∀ m ∈ l.members, (file? 0 m).all (·.isOk) = true) :
    (ingestBytes insert id data s).store = storeAll insert (archiveFiles id data) s ∧
      ∃ n, (ingestBytes insert id data s).result = ending l.failure n := by
  rw [ingestBytes_of_ok insert id s h, archiveFiles, h]
  exact ingestFrom_of_isOk hfiles l.failure 0 [] s

/-- How the listing of a compressed archive that is cut off ends. -/
inductive CutListing (cut : Bytes) : Option ReadFailure → Prop
  | later (h : EndsInLaterHeader cut) (hmap : ∀ f, ¬EndsInMap cut f) : CutListing cut none
  | inMap {f : ReadFailure} (h : EndsInMap cut f) (hlater : ¬EndsInLaterHeader cut)
    (honly : ∀ g, EndsInMap cut g → g = f) : CutListing cut (some f)
  | damaged (hlater : ¬EndsInLaterHeader cut) (hmap : ∀ f, ¬EndsInMap cut f) :
    CutListing cut (some .damaged)

theorem cutListing_of_cutEnding {cut : Bytes} {s : Source} (hs : Gzip.decode cut = .ok s)
    {failure : Option ReadFailure} (h : Tar.CutEnding s (Tar.lastPlace isAsked s) failure) :
    CutListing cut failure := by
  have hlater (h : EndsInLaterHeader cut) : Tar.EndsLater (Tar.lastPlace isAsked s) := by
    obtain ⟨t, ht, hlast⟩ := h
    exact Except.ok.inj (hs.symm.trans ht) ▸ hlast
  have hmap {f : ReadFailure} (h : EndsInMap cut f) :
      Tar.EndsInMap (Tar.lastPlace isAsked s) f := by
    obtain ⟨t, ht, hlast⟩ := h
    exact Except.ok.inj (hs.symm.trans ht) ▸ hlast
  cases h with
  | later _ hends => exact .later ⟨s, hs, hends⟩ fun f hf => hends.not_inMap f (hmap hf)
  | inMap hends =>
    exact .inMap ⟨s, hs, hends⟩ (fun h => (hlater h).not_inMap _ hends)
      fun g hg => (hmap hg).unique hends
  | damaged hnot hnone => exact .damaged (fun h => hnot (hlater h)) fun f hf => hnone f (hmap hf)

/-- What a cut leaves of an archive that can be read to its end: all members, or the first ones. -/
theorem listing_of_cut {cut data : Bytes} (hcut : cut <+: data) (hforward : IsForward data)
    {l l' : Listing} (h : listing cut = .ok l) (h' : listing data = .ok l')
    (hl' : l'.failure = none) :
    l = l' ∨ l.members <+: l'.members ∧ CutListing cut l.failure := by
  obtain ⟨s, hs, rfl⟩ := listing_eq_ok h
  obtain ⟨s', hs', rfl⟩ := listing_eq_ok h'
  obtain ⟨hskipped, hfrom⟩ := Gzip.decode_of_cut hcut hs hs'
  refine (Tar.list_of_cutFrom hfrom hskipped (hforward s' hs') hl').imp_right ?_
  exact fun ⟨hmembers, hends⟩ => ⟨hmembers, cutListing_of_cutEnding hs hends⟩

/-- A walk over an archive that is cut off stores the first of the files that the walk over the
whole archive stores. If some are missing, it ends with damage, except in three cases: it returns a
number if the decoded bytes end within the header of a member behind other members, and it ends with
failures of other kinds if they end within the map of a sparse file, or if the compressed data ends
within its own header. -/
theorem ingestBytes_of_cut (insert : RepositoryFile → σ → Except Text σ) (id : Int) (s : σ)
    {cut data : Bytes} (hcut : cut <+: data)
    (h : (ingestBytes insert id data s).result.isOk = true) (hforward : IsForward data) :
    (ingestBytes insert id data s).store = storeAll insert (archiveFiles id data) s ∧
    (ingestBytes insert id cut s).store = storeAll insert (archiveFiles id cut) s ∧
    archiveFiles id cut <+: archiveFiles id data ∧
    (archiveFiles id cut ≠ archiveFiles id data →
      ((ingestBytes insert id cut s).result = .error (.unread .damaged) ↔
        ¬EndsInLaterHeader cut ∧ ¬EndsInStreamHeader cut ∧ ∀ f, ¬EndsInMap cut f) ∧
      ((ingestBytes insert id cut s).result.isOk = true ↔ EndsInLaterHeader cut) ∧
      ((ingestBytes insert id cut s).result = .error (.unread .headerCut) ↔
        EndsInStreamHeader cut) ∧
      ∀ f, f.IsMapEnd →
        ((ingestBytes insert id cut s).result = .error (.unread f) ↔ EndsInMap cut f)) := by
  obtain ⟨l', hl', hend, hfiles⟩ := ingestBytes_of_isOk h
  have hwhole := ingestBytes_of_listing insert id s hl' hfiles
  cases hl : listing cut with
  | error f =>
    obtain ⟨fault, hfault, hends⟩ := listing_eq_error hl
    have hlater : ¬EndsInLaterHeader cut := fun ⟨t, ht, _⟩ => nomatch hfault.symm.trans ht
    have hmap (f : ReadFailure) : ¬EndsInMap cut f := fun ⟨t, ht, _⟩ => nomatch hfault.symm.trans ht
    have hnone : archiveFiles id cut = [] := by
      rw [archiveFiles, hl]
    rw [ingestBytes_of_error insert id s hl, hnone]
    refine ⟨hwhole.1, rfl, List.nil_prefix, fun _ => ?_⟩
    rcases hends with ⟨rfl, hstream⟩ | ⟨rfl, hstream⟩
    · simp [hlater, hstream, hmap, ReadFailure.IsMapEnd, Except.isOk, Except.toBool]
    · simp [hlater, hstream, hmap, ReadFailure.IsMapEnd, Except.isOk, Except.toBool]
  | ok l =>
    have hstream := not_endsInStreamHeader hl
    have hmembers := listing_of_cut hcut hforward hl hl' hend
    have hbegins : l.members <+: l'.members := by
      rcases hmembers with rfl | ⟨hbegins, -⟩
      · exact List.prefix_rfl
      · exact hbegins
    obtain ⟨hstore, n, hresult⟩ := ingestBytes_of_listing insert id s hl fun m hm =>
      hfiles m (hbegins.subset hm)
    refine ⟨hwhole.1, hstore, ?_, fun hmissing => ?_⟩
    · rw [archiveFiles, archiveFiles, hl, hl']
      exact (hbegins.filter _).map _
    · have hshort : l ≠ l' := fun heq => hmissing (by rw [archiveFiles, archiveFiles, hl, hl', heq])
      have hends := (hmembers.resolve_left hshort).2
      rw [hresult]
      generalize l.failure = failure at hends
      cases hends with
      | later hlater hmap => simp [ending, hlater, hmap, hstream, Except.isOk, Except.toBool]
      | @inMap f hinMap hlater honly =>
        have hdamage : f ≠ .damaged := hinMap.isMapEnd.ne (by decide)
        have hheader : f ≠ .headerCut := hinMap.isMapEnd.ne (by decide)
        have hiff (g : ReadFailure) : f = g ↔ EndsInMap cut g :=
          ⟨fun h => h ▸ hinMap, fun hg => (honly g hg).symm⟩
        have hsome : ∃ f, EndsInMap cut f := ⟨f, hinMap⟩
        simp [ending, hlater, hstream, hdamage, hheader, hiff, hsome, Except.isOk, Except.toBool]
      | damaged hlater hmap =>
        simp [ending, hlater, hmap, hstream, ReadFailure.IsMapEnd, Except.isOk, Except.toBool]

/-- A store that keeps the files in order. -/
def record (f : RepositoryFile) (fs : List RepositoryFile) : Except Text (List RepositoryFile) :=
  .ok (fs ++ [f])

/-- An archive with two files, called a.go and b.go. -/
def twoFiles : Bytes :=
  [31, 139, 8, 0, 0, 0, 0, 0, 0, 255, 43, 210, 79, 212, 75, 207, 103, 160, 41, 48, 0, 2, 51, 19, 19,
    48, 13, 4, 232, 180, 129, 129, 161, 17, 130, 13, 22, 55, 51, 55, 49, 99, 80, 48, 96, 160, 3, 40,
    45, 46, 73, 44, 2, 90, 201, 48, 50, 65, 65, 98, 114, 118, 98, 122, 170, 66, 34, 23, 195, 40, 24,
    129, 160, 72, 63, 105, 112, 230, 127, 243, 209, 252, 79, 207, 252, 159, 52, 154, 255, 71, 193,
    40, 24, 5, 163, 96, 68, 1, 0]

/-- The first file of the archive. -/
def fileA : Member := ⟨"r/a.go", true, [112, 97, 99, 107, 97, 103, 101, 32, 97, 10]⟩

/-- The second file of the archive. -/
def fileB : Member := ⟨"r/b.go", true, [112, 97, 99, 107, 97, 103, 101, 32, 98, 10]⟩

set_option maxRecDepth 100000 in
/-- The archive, a cut behind the content of the first file and one within the header of the
second. -/
theorem listing_twoFiles : listing twoFiles = .ok ⟨[fileA, fileB], none⟩ ∧
    listing (twoFiles.take 71) = .ok ⟨[fileA], some .damaged⟩ ∧
    listing (twoFiles.take 80) = .ok ⟨[fileA], none⟩ := by
  decide +kernel

/-- A cut behind the content of the first file is noticed. -/
theorem ingestBytes_of_cut_of_twoFiles :
    let cut := twoFiles.take 71
    (ingestBytes record 1 twoFiles []).result = .ok 2 ∧
      (ingestBytes record 1 cut []).result = .error (.unread .damaged) ∧
      archiveFiles 1 cut <+: archiveFiles 1 twoFiles ∧
      archiveFiles 1 cut ≠ archiveFiles 1 twoFiles ∧
      IsForward twoFiles ∧ ¬EndsInLaterHeader cut ∧ ¬EndsInStreamHeader cut ∧
      ∀ f, ¬EndsInMap cut f := by
  intro cut
  obtain ⟨hlisting, hpadding, -⟩ := listing_twoFiles
  have hwhole : (ingestBytes record 1 twoFiles []).result = .ok 2 := by
    rw [ingestBytes, hlisting]
    decide +kernel
  have hcut : (ingestBytes record 1 cut []).result = .error (.unread .damaged) := by
    rw [ingestBytes, hpadding]
    decide +kernel
  have hmissing : archiveFiles 1 cut ≠ archiveFiles 1 twoFiles := by
    rw [archiveFiles, archiveFiles, hlisting, hpadding]
    decide +kernel
  have hforward : IsForward twoFiles := by
    decide +kernel
  obtain ⟨-, -, hbegins, hends⟩ := ingestBytes_of_cut record 1 [] (List.take_prefix 71 twoFiles)
    (congrArg Except.isOk hwhole) hforward
  exact ⟨hwhole, hcut, hbegins, hmissing, hforward, (hends hmissing).1.mp hcut⟩

/-- A cut within the header of the second file is not noticed: the walk stores the first file, and
returns the number one. -/
theorem ingestBytes_overlooks_cut :
    (ingestBytes record 1 twoFiles []).result = .ok 2 ∧
      (ingestBytes record 1 (twoFiles.take 80) []).store = [storedFile 1 fileA] ∧
      (ingestBytes record 1 (twoFiles.take 80) []).result = .ok 1 := by
  obtain ⟨hlisting, -, hheader⟩ := listing_twoFiles
  rw [ingestBytes, ingestBytes, hlisting, hheader]
  decide +kernel

end ProviderCatalog.Archive
