import ProviderCatalog.Proofs.Archive.Truncation

/-!
# How walks over archives end

A walk over a compressed archive returns a number, or it tells of damage, except in three cases: a
retained member has a path that cannot be encoded, the compressed data ends within its own header,
or the archive cannot be read on for a reason of another kind. The last case takes a sparse file, a
record about one, a header for the next one with a negative size, or too many of these headers in a
row: an archive without them is called plain. What the members contain and what the store does with
their files never ends a walk: a file that the store refuses is told by a warning, and the next one
is handed to the store.

A member whose path cannot be encoded ends the walk where it stands. The files before it are stored
or refused, as in every walk, and those behind it are not handed to the store.

## Main definitions

* `Tar.IsPlain`: the bytes of an archive that can be read but for damage.
* `isUnencodable`, `unencodable`: a retained member whose path cannot be encoded, and why it is no
  file.
* `Tally`, `Tally.offer`: what a walk has done, and how it hands a file to the store.

## Main results

* `Tar.IsPlain.list`: listing a plain archive fails with damage only.
* `endsInStreamHeader_iff`: the compressed data that ends within its header.
* `ingest_eq`: what a walk does and how it ends.
* `ingestBytes_ends`: the walks that end with a number or with damage.
* `ingestBytes_escapes`: walks that end otherwise.
-/

namespace ProviderCatalog.Archive.Tar

variable {s : Source} {data : Bytes} {n k asked : Nat} {general : Extension}
  {reads : Text → Bool}

/-! ### Records -/

/-- A record about a sparse file. -/
def Record.IsSparse (r : Record) : Prop := ("GNU.sparse." : Text) <+: r.keyword

theorem Record.keyword_ne {r : Record} (hr : ¬r.IsSparse) {keyword : Text}
    (hkeyword : ("GNU.sparse." : Text) <+: keyword) : r.keyword ≠ keyword := by
  rintro rfl
  exact hr hkeyword

/-- A record can be read from the front of longer bytes, too. -/
theorem record?_append {r : Record} {length : Nat} (h : record? data = some (r, length))
    (more : Bytes) : record? (data ++ more) = some (r, length) := by
  have hdigits (p : UInt8 → Bool) {b : UInt8} (hspace : data[(data.takeWhile p).length]? = some b) :
      (data ++ more).takeWhile p = data.takeWhile p := by
    have hshort : (data.takeWhile p).length ≠ data.length := fun heq => by
      rw [heq, List.getElem?_length] at hspace
      exact nomatch hspace
    rw [List.takeWhile_append, if_neg hshort]
  unfold record? at h ⊢
  dsimp only at h ⊢
  split at h
  · exact nomatch h
  · rename_i hstart
    have hspace := hstart
    simp only [Bool.or_eq_true, not_or, bne_iff_ne, ne_eq, not_not] at hspace
    have hwithin := (List.getElem?_eq_some_iff.mp hspace.2).1
    rw [hdigits _ hspace.2, List.getElem?_append_left hwithin, if_neg hstart]
    split at h
    · exact nomatch h
    · rename_i hlength
      have hend := hlength
      simp only [Bool.or_eq_true, not_or, decide_eq_true_eq, Nat.not_lt] at hend
      generalize asciiDigits _ = length' at *
      have hinside (start : Nat) : slice (data ++ more) start (length' - 1) =
          slice data start (length' - 1) := by
        rw [slice, slice, List.take_append_of_le_length (by omega)]
      have hfits : (data ++ more).length < length' ↔ data.length < length' := by
        rw [List.length_append]
        omega
      rw [hinside, List.getElem?_append_left (by omega)]
      simp only [hfits]
      rw [if_neg hlength]
      exact h

/-- The records in a part of some bytes can be read from a place in them. -/
theorem records?_mem {rs : List Record} (h : records? ((data.drop n).take k) = some rs) {r : Record}
    (hr : r ∈ rs) : ∃ m length, record? (data.drop m) = some (r, length) := by
  unfold records? at h
  have hpart : (data.drop n).take k <+: data.drop n := List.take_prefix _ _
  revert h hpart
  generalize ((data.drop n).take k).length + 1 = bound
  generalize (data.drop n).take k = part
  intro h hpart
  induction bound generalizing rs part n with
  | zero =>
    cases h
    exact nomatch hr
  | succ bound ih =>
    rw [recordsWithin?.eq_def] at h
    dsimp only at h
    split at h
    · cases h
      exact nomatch hr
    · split at h
      · cases h
        exact nomatch hr
      · split at h
        · exact nomatch h
        · rename_i first length hfirst
          obtain ⟨rest, hrest, rfl⟩ := Option.map_eq_some_iff.mp h
          rcases List.mem_cons.mp hr with rfl | hr
          · obtain ⟨more, hmore⟩ := hpart
            exact ⟨n, length, hmore ▸ record?_append hfirst more⟩
          · refine ih (n := n + length) hr _ hrest ?_
            rw [← List.drop_drop]
            exact hpart.drop length

/-- An extension without records about sparse files. -/
def Extension.IsPlain (x : Extension) : Prop := ∀ r ∈ x, ¬r.IsSparse

theorem Extension.IsPlain.get?_eq_none {x : Extension} (hx : x.IsPlain) {keyword : Text}
    (hkeyword : ("GNU.sparse." : Text) <+: keyword) : x.get? keyword = none := by
  rw [Extension.get?, Option.map_eq_none_iff, List.find?_eq_none]
  intro r hr heq
  exact r.keyword_ne (hx r hr) hkeyword (of_decide_eq_true heq)

theorem Extension.IsPlain.addRecords {x : Extension} (hx : x.IsPlain) {rs : List Record}
    (hrs : ∀ r ∈ rs, ¬r.IsSparse) : (x.addRecords rs).IsPlain := by
  induction rs generalizing x with
  | nil => exact hx
  | cons r rs ih =>
    obtain ⟨hr, hrs⟩ := List.forall_mem_cons.mp hrs
    refine ih (fun t ht => ?_) hrs
    unfold Extension.add at ht
    split at ht
    · obtain ⟨t', ht', rfl⟩ := List.mem_map.mp ht
      split
      · exact hr
      · exact hx t' ht'
    · rcases List.mem_append.mp ht with ht | ht
      · exact hx t ht
      · exact List.mem_singleton.mp ht ▸ hr

/-- An extension without records about sparse files can be applied to any header. -/
theorem Extension.IsPlain.applyTo {x : Extension} (hx : x.IsPlain) (h : Header) :
    ∃ h', x.applyTo h = .ok h' := by
  induction x generalizing h with
  | nil => exact ⟨h, rfl⟩
  | cons r x ih =>
    obtain ⟨hr, hx⟩ := List.forall_mem_cons.mp hx
    have hsome : ∃ h', h.withRecord r = .ok h' := by
      have hname : r.keyword ≠ "GNU.sparse.name" := r.keyword_ne hr (by decide)
      have hsize : r.keyword ≠ "GNU.sparse.size" := r.keyword_ne hr (by decide)
      have hreal : r.keyword ≠ "GNU.sparse.realsize" := r.keyword_ne hr (by decide)
      unfold Header.withRecord
      rw [if_neg hname, if_neg (by simp [hsize, hreal])]
      split
      · exact ⟨_, rfl⟩
      · split
        · exact ⟨_, rfl⟩
        · exact ⟨_, rfl⟩
    obtain ⟨h', hh'⟩ := hsome
    obtain ⟨h'', hh''⟩ := ih hx h'
    refine ⟨h'', ?_⟩
    rw [Extension.applyTo, List.foldlM_cons, hh', except_ok_bind]
    exact hh''

/-! ### Archives without sparse files -/

/-- From a place on stand `k` headers in a row, each of them about the next one. -/
inductive Nested (data : Bytes) : Nat → Nat → Prop
  | none (n : Nat) : Nested data 0 n
  | more {k n : Nat} {h : Header} (hheader : header ((data.drop n).take blockSize) = .ok h)
    (hkind : h.kind.introduces = true)
    (hrest : Nested data k (n + blockSize + (wholeBlocks h.size).toNat)) : Nested data (k + 1) n

/-- The bytes of an archive without sparse files, in which no header for the next one has a negative
size and not too many of them stand in a row. -/
structure IsPlain (data : Bytes) : Prop where
  forward : IsForward data
  unsparse : ∀ n h, header ((data.drop n).take blockSize) = .ok h → h.kind ≠ .sparse
  unmapped : ∀ n r length, record? (data.drop n) = some (r, length) → ¬r.IsSparse
  shallow : ∀ n, ¬Nested data (maxNesting + 1) n

theorem not_nested_end : ¬Nested data (k + 1) data.length := by
  rintro (_ | ⟨hheader, -, -⟩)
  have hend := header_within hheader
  have hsize : 0 < blockSize := by decide
  omega

/-- What is read from a place on stands there, and the next place is behind it. -/
theorem take_told (hn : n ≤ s.data.length) (k : Nat) :
    Told (· = .damaged) (fun r => r.1 = (s.data.drop n).take k ∧
      ∃ asked, r.2 = s.cursor (min (n + k) s.data.length) asked) ((s.cursor n asked).take k) := by
  rcases Nat.lt_or_ge s.data.length (n + k) with hshort | hwhole
  · rw [take_beyond hn hshort]
    split
    · exact .failure rfl
    · have hlength : (s.data.drop n).length ≤ k := by
        rw [List.length_drop]
        omega
      exact .ok ⟨(List.take_of_length_le hlength).symm, _,
        by rw [Nat.min_eq_right (Nat.le_of_lt hshort)]⟩
  · rw [take_inside hwhole]
    exact .ok ⟨rfl, _, by rw [Nat.min_eq_left hwhole]⟩

/-- A place in decoded bytes. -/
def IsPlace (s : Source) (c : Cursor) : Prop := ∃ n asked, n ≤ s.data.length ∧ c = s.cursor n asked

theorem keeps_isPlace : Keeps (IsPlace s) := by
  rintro _ k ⟨n, asked, hn, rfl⟩
  refine (take_told hn k).imp ?_
  rintro ⟨bytes, c⟩ ⟨-, asked, hc⟩
  exact ⟨_, asked, Nat.min_le_right _ _, hc⟩

theorem header_told (block : Bytes) :
    Told (· = .damaged) (fun h => header block = .ok h) (header block) := by
  cases hheader : header block with
  | ok h => exact .ok rfl
  | error a =>
    unfold header at hheader
    split at hheader
    · cases hheader
      exact .noHeader
    · split at hheader
      · cases hheader
        exact .endMark
      · iterate 3
          split at hheader
          · cases hheader
            exact .noHeader
        exact nomatch hheader

/-- A member without a map, found behind extensions that are not about sparse files. -/
structure Entry.IsPlain (s : Source) (e : Entry) : Prop where
  map : e.map = none
  general : e.general.IsPlain
  place : IsPlace s e.cursor

theorem Extension.IsPlain.withMap {x : Extension} (hx : x.IsPlain) (rs : List Record) (e : Entry) :
    e.withMap x rs = .ok e := by
  have hnone {keyword : Text} (hkeyword : ("GNU.sparse." : Text) <+: keyword) :
      x.get? keyword = none := hx.get?_eq_none hkeyword
  rw [Entry.withMap, hnone (by decide), hnone (by decide), hnone (by decide)]
  rfl

/-- What a header tells that is not about sparse files leads to a member or to damage. -/
theorem Extension.IsPlain.tells (s : Source) (hx : general.IsPlain) (h : Header) {part : Bytes}
    (hpart : ∀ rs, records? part = some rs → ∀ r ∈ rs, ¬r.IsSparse) :
    Told (· = .damaged) (fun r => r.1.IsPlain ∧ ∀ e : Entry, e.IsPlain s →
      Told (· = .damaged) (Entry.IsPlain s) (r.2 e)) (h.tells general part) := by
  unfold Header.tells
  split
  · exact .ok ⟨hx, fun e he => .ok ⟨he.map, he.general, he.place⟩⟩
  · split
    · exact .noHeader
    · rename_i rs hrs
      have hx' := hx.addRecords (hpart rs hrs)
      refine .ok ⟨hx, fun e he => ?_⟩
      dsimp only
      obtain ⟨h', hh'⟩ := hx'.applyTo e.header
      rw [hx'.withMap rs e, Except.bind, Entry.withExtension, hh']
      exact .ok ⟨he.map, he.general, he.place⟩
  · split
    · exact .noHeader
    · rename_i rs hrs
      refine .ok ⟨hx.addRecords (hpart rs hrs), fun e he => ?_⟩
      dsimp only
      rw [he.general.withMap rs e]
      exact .ok he
  · exact .ok ⟨hx, fun e he => .ok ⟨he.map, he.general, he.place⟩⟩

/-- The headers of a member lead to a member without a map, or to damage. -/
theorem IsPlain.entry (h : IsPlain s.data) (hgeneral : general.IsPlain) (count : Nat)
    (hn : n ≤ s.data.length) (hcount : ¬Nested s.data (count + 1) n) :
    Told (· = .damaged) (Entry.IsPlain s) (entry count general (s.cursor n asked)) := by
  induction count using Nat.strongRecOn generalizing general n asked with
  | ind count ih =>
    rw [entry.eq_def]
    refine (take_told hn blockSize).bind ?_
    rintro ⟨block, c⟩ ⟨hblock, asked, hc⟩
    obtain rfl : block = (s.data.drop n).take blockSize := hblock
    refine (header_told _).bind fun header hheader => ?_
    obtain rfl : c = s.cursor (n + blockSize) asked := by
      rw [← Nat.min_eq_left (header_within hheader)]
      exact hc
    dsimp only
    split
    · rename_i hkind
      cases count with
      | zero => exact absurd (.more hheader hkind (.none _)) hcount
      | succ count =>
        dsimp only
        rw [read_forward _ (h.forward n header hheader hkind)]
        refine (take_told (header_within hheader) _).bind ?_
        rintro ⟨part, c⟩ ⟨hpart, asked, hc⟩
        obtain rfl := hpart
        obtain rfl := hc
        dsimp only
        refine (hgeneral.tells s header fun rs hrs r hr => ?_).bind ?_
        · obtain ⟨m, length, hrecord⟩ := records?_mem hrs hr
          exact h.unmapped m r length hrecord
        · rintro ⟨general, change⟩ ⟨hgeneral, hchange⟩
          refine Told.bind (Told.behind ?_) hchange
          refine ih count (Nat.lt_succ_self count) hgeneral (Nat.min_le_right _ _) fun hnested => ?_
          rcases Nat.le_total (n + blockSize + (wholeBlocks header.size).toNat) s.data.length
            with hinside | hend
          · rw [Nat.min_eq_left hinside] at hnested
            exact hcount (.more hheader hkind hnested)
          · rw [Nat.min_eq_right hend] at hnested
            exact not_nested_end hnested
    · split
      · rename_i hsparse
        exact absurd hsparse (h.unsparse n header hheader)
      · obtain ⟨header', hheader'⟩ := hgeneral.applyTo header
        rw [plainEntry, hheader']
        exact .ok ⟨rfl, hgeneral, _, _, header_within hheader, rfl⟩

theorem segments_of_file {size place : Int} {t : Segment}
    (h : t ∈ segments size place [(0, size)]) : t.place = some place := by
  simp only [segments, segmentsFrom, Int.lt_irrefl, if_false, Int.zero_add, List.mem_singleton] at h
  rw [h]

theorem IsPlain.step (h : IsPlain s.data) (reads : Text → Bool) (hgeneral : general.IsPlain)
    {c : Cursor} (hc : IsPlace s c) (position : Int) :
    Told (· = .damaged) (fun r => r.1.general.IsPlain ∧ IsPlace s r.1.cursor)
      (step reads general c position) := by
  refine (keeps_isPlace.moveTo hc position).bind ?_
  rintro _ ⟨n, asked, hn, rfl⟩
  refine (h.entry hgeneral maxNesting hn (h.shallow n)).bind fun e he => ?_
  refine ((keeps_isPlace.member he.place).mono ?_).bind fun r hr => .ok ⟨he.general, hr⟩
  rintro f (hf | ⟨-, t, ht, hplace⟩)
  · exact hf
  · rw [he.map] at ht
    exact nomatch hplace.symm.trans (segments_of_file ht)

/-- Listing an archive without sparse files fails with damage only. -/
theorem IsPlain.list (h : IsPlain s.data) :
    (list reads s).failure = none ∨ (list reads s).failure = some .damaged := by
  have hgeneral : Extension.IsPlain [] := fun r hr => nomatch hr
  have hplace : IsPlace s (s.cursor s.start s.start) := ⟨_, _, Nat.min_le_right _ _, rfl⟩
  unfold Tar.list
  revert hgeneral hplace
  generalize s.data.length + 1 = bound, ([] : Extension) = general, s.cursor s.start s.start = c,
    ([] : List Member) = found, (s.start : Int) = position
  intro hgeneral hplace
  induction bound generalizing general c found position with
  | zero => exact .inl rfl
  | succ bound ih =>
    have hstep := h.step reads hgeneral hplace position
    rw [listFrom]
    revert hstep
    generalize Tar.step reads general c position = r
    rintro (⟨hgeneral, hplace⟩ | _ | _ | rfl)
    · exact ih _ _ _ _ hgeneral hplace
    · exact .inl rfl
    · dsimp only [Absence.failureAt]
      split
      · exact .inr rfl
      · exact .inl rfl
    · exact .inr rfl

/-- Whether no record that can be read in some bytes is about a sparse file. -/
def checkRecords : Bytes → Bool
  | [] => true
  | b :: bs =>
    ((record? (b :: bs)).all fun r => !("GNU.sparse." : Text).isPrefixOf r.1.keyword) &&
      checkRecords bs

theorem checkRecords_iff :
    checkRecords data = true ↔
      ∀ n r length, record? (data.drop n) = some (r, length) → ¬r.IsSparse := by
  induction data with
  | nil =>
    refine ⟨fun _ n r length hrecord => ?_, fun _ => rfl⟩
    rw [List.drop_nil] at hrecord
    exact nomatch hrecord
  | cons b bs ih =>
    have hfirst : ((record? (b :: bs)).all fun r =>
        !("GNU.sparse." : Text).isPrefixOf r.1.keyword) = true ↔
          ∀ r length, record? (b :: bs) = some (r, length) → ¬r.IsSparse := by
      simp only [Option.all_eq_true, Prod.forall, Bool.not_eq_true', Record.IsSparse,
        ← List.isPrefixOf_iff_prefix, Bool.not_eq_true]
    rw [checkRecords, Bool.and_eq_true, hfirst, ih]
    constructor
    · rintro ⟨hfirst, hrest⟩ (_ | n)
      · exact hfirst
      · exact hrest n
    · exact fun h => ⟨h 0, fun n => h (n + 1)⟩

/-- An archive of which no header is about the next one or about a sparse file, and no record about
a sparse file, is plain. -/
theorem isPlain_of_check
    (hheaders : checkHeaders (fun h => !h.kind.isSpecial) data (data.drop 156) = true)
    (hrecords : checkRecords data = true) : IsPlain data := by
  have hall := (checkHeaders_iff (fun h hkind => by simp [hkind]) data).mp hheaders
  have hordinary {n : Nat} {h : Header} (hheader : header ((data.drop n).take blockSize) = .ok h) :
      h.kind.introduces = false ∧ h.kind ≠ .sparse := by
    have hkind := hall n h hheader
    rw [Bool.not_eq_true', Kind.isSpecial, Bool.or_eq_false_iff, decide_eq_false_iff_not] at hkind
    exact hkind
  refine ⟨fun n h hheader hkind => ?_, fun n h hheader => (hordinary hheader).2,
    checkRecords_iff.mp hrecords, ?_⟩
  · exact nomatch (hordinary hheader).1.symm.trans hkind
  · rintro n (_ | ⟨hheader, hkind, -⟩)
    exact nomatch (hordinary hheader).1.symm.trans hkind

end ProviderCatalog.Archive.Tar

namespace ProviderCatalog.Archive

variable {σ : Type} {id : Int} {insert : RepositoryFile → σ → Except Text σ} {m : Member}

/-! ### Data that ends within its header -/

theorem Gzip.extraBlocks_ne_cutOff (data : Bytes) (extra bound n : Nat) :
    extraBlocks data extra bound n ≠ .error .cutOff := by
  induction bound generalizing n with
  | zero => rintro ⟨⟩
  | succ bound ih =>
    rw [extraBlocks]
    split
    · rintro ⟨⟩
    · split
      · rintro ⟨⟩
      · exact ih (n + 1)

/-- The header of a stream ends before the length of its extra field if it has one. -/
theorem Gzip.afterExtra_cutOff (data : Bytes) (flags : UInt8) :
    afterExtra data flags = .error .cutOff ↔
      flags.toNat.testBit 2 = true ∧ data.length < 12 := by
  have hlength : (data.drop 10).length = data.length - 10 := List.length_drop
  unfold afterExtra
  cases flags.toNat.testBit 2 with
  | false => exact ⟨fun h => (nomatch h), fun h => (nomatch h.1)⟩
  | true =>
    rw [if_neg (by decide), eq_self, true_and]
    split
    · rename_i low high rest hfield
      rw [hfield, List.length_cons, List.length_cons] at hlength
      refine ⟨fun h => ?_, fun h => by omega⟩
      dsimp only at h
      split at h
      · exact nomatch h
      · exact absurd (except_map_eq_error.mp h) (extraBlocks_ne_cutOff _ _ _ _)
    · rename_i hfield
      refine ⟨fun _ => ?_, fun _ => rfl⟩
      rcases hrest : data.drop 10 with _ | ⟨low, _ | ⟨high, rest⟩⟩
      · rw [hrest, List.length_nil] at hlength
        omega
      · rw [hrest, List.length_singleton] at hlength
        omega
      · exact absurd hrest (hfield low high rest)

/-- The compressed data ends within its header if it ends in front of the flags, or if the flags
announce an extra field whose length is not there. -/
theorem endsInStreamHeader_iff {data : Bytes} :
    EndsInStreamHeader data ↔ data = [0x1F, 0x8B, 0x08] ∨
      ∃ flags rest, data = 0x1F :: 0x8B :: 0x08 :: flags :: rest ∧
        flags.toNat.testBit 2 = true ∧ data.length < 12 := by
  rw [EndsInStreamHeader, Gzip.body.eq_def]
  split
  · rename_i rest
    cases rest with
    | nil => exact ⟨fun _ => .inl rfl, fun _ => rfl⟩
    | cons flags rest =>
      dsimp only
      rw [except_map_eq_error, Gzip.afterExtra_cutOff]
      constructor
      · exact fun h => .inr ⟨flags, rest, rfl, h⟩
      · rintro (h | ⟨flags', rest', heq, h⟩)
        · exact nomatch h
        · cases heq
          exact h
  · rename_i hother
    refine ⟨fun h => (nomatch h), ?_⟩
    rintro (rfl | ⟨flags, rest, rfl, -⟩)
    · exact absurd rfl (hother [])
    · exact absurd rfl (hother (flags :: rest))

/-! ### Members whose paths cannot be encoded -/

/-- A member is retained at a path that cannot be encoded. -/
def isUnencodable (m : Member) : Bool := isRetained m && !(repositoryPath m.name).isUnicode

/-- Why there is no file at a path that cannot be encoded: neither is its path a text, nor is its
name one, unless the name can be encoded nevertheless. -/
def unencodable (path : Text) : Invalid where
  record := RepositoryFile.recordName
  issues := ⟨[.field "file_path"], .textNotUnicode⟩ ::
    if (baseName path).isUnicode then [] else [⟨[.field "file_name"], .textNotUnicode⟩]

/-- A retained member has a file unless its path cannot be encoded. -/
theorem file?_eq_cases (id : Int) (m : Member) :
    file? id m = if isUnencodable m then some (.error (unencodable (repositoryPath m.name)))
      else if isRetained m then some (.ok (storedFile id m)) else none := by
  rw [file?_eq_ite, isUnencodable]
  cases hretained : isRetained m with
  | false => rfl
  | true =>
    have hmember := isRetained_iff.mp hretained
    have hname := baseName_ne_nil hmember.nonempty hmember.leads.ends
    rw [if_pos rfl, if_pos rfl, Bool.true_and]
    cases hpath : (repositoryPath m.name).isUnicode with
    | true =>
      have hbase := Text.isUnicode_of_subset (baseName_subset (repositoryPath m.name)) hpath
      rw [RepositoryFile.make_eq hpath hmember.nonempty hbase hname]
      rfl
    | false =>
      rw [RepositoryFile.make, Checked.nonEmptyText_eq hmember.nonempty,
        Checked.nonEmptyText_eq hname, hpath, unencodable]
      cases (baseName (repositoryPath m.name)).isUnicode <;> rfl

/-- No member is one that ends a walk if all paths at which members are retained can be encoded. -/
theorem find?_isUnencodable_eq_none {ms : List Member} :
    ms.find? isUnencodable = none ↔
      ∀ m ∈ ms, ∀ path, IsRetained m path → path.isUnicode = true := by
  rw [List.find?_eq_none]
  refine forall₂_congr fun m _ => ?_
  simp only [isRetained_at_iff, isUnencodable]
  simp

/-! ### Walks -/

/-- What a walk has done so far. -/
structure Tally (σ : Type) where
  store : σ
  warnings : List Text
  stored : Nat

/-- A file is handed to the store, which takes it or refuses it. -/
def Tally.offer (insert : RepositoryFile → σ → Except Text σ) (t : Tally σ) (f : RepositoryFile) :
    Tally σ :=
  match insert f t.store with
  | .ok store => { t with store, stored := t.stored + 1 }
  | .error reason => { t with warnings := t.warnings ++ [refusalWarning f.path reason] }

/-- What a walk has done when it ends: it has handed the files of the retained members to the store,
one after the other, up to the first member whose path cannot be encoded. -/
def tally (insert : RepositoryFile → σ → Except Text σ) (id : Int) (ms : List Member)
    (t : Tally σ) : Tally σ :=
  (retainedFiles id (ms.takeWhile (!isUnencodable ·))).foldl (Tally.offer insert) t

/-- All retained files are handed to the store if all their paths can be encoded. -/
theorem tally_eq {ms : List Member} (h : ms.find? isUnencodable = none) (t : Tally σ) :
    tally insert id ms t = (retainedFiles id ms).foldl (Tally.offer insert) t := by
  have hpassed : ms.takeWhile (!isUnencodable ·) = ms := by
    rw [List.takeWhile_eq_self_iff]
    intro m hm
    simpa using List.find?_eq_none.mp h m hm
  rw [tally, hpassed]

theorem retainedFiles_cons (id : Int) (m : Member) (ms : List Member) :
    retainedFiles id (m :: ms) =
      if isRetained m then storedFile id m :: retainedFiles id ms else retainedFiles id ms := by
  rw [retainedFiles, List.filter_cons]
  split <;> rfl

private theorem ingestFrom_eq (failure : Option ReadFailure) (t : Tally σ) (ms : List Member) :
    ingestFrom insert id failure t.stored t.warnings.reverse t.store ms =
      { store := (tally insert id ms t).store
        warnings := (tally insert id ms t).warnings
        result := match ms.find? isUnencodable with
          | some m => .error (.invalid (unencodable (repositoryPath m.name)))
          | none => ending failure (tally insert id ms t).stored } := by
  induction ms generalizing t with
  | nil =>
    rw [ingestFrom, List.reverse_reverse]
    rfl
  | cons m ms ih =>
    rw [ingestFrom, file?_eq_cases, tally, List.takeWhile_cons, List.find?_cons]
    cases hm : isUnencodable m with
    | true =>
      rw [if_pos rfl]
      dsimp only
      rw [List.reverse_reverse]
      rfl
    | false =>
      rw [if_neg Bool.false_ne_true, Bool.not_false, if_pos rfl, retainedFiles_cons]
      dsimp only
      cases hretained : isRetained m with
      | false => exact ih t
      | true =>
        rw [if_pos rfl, if_pos rfl, List.foldl_cons]
        dsimp only
        cases hinsert : insert (storedFile id m) t.store with
        | ok store =>
          have hoffer : t.offer insert (storedFile id m) = ⟨store, t.warnings, t.stored + 1⟩ := by
            rw [Tally.offer, hinsert]
          rw [hoffer]
          exact ih ⟨store, t.warnings, t.stored + 1⟩
        | error reason =>
          have hoffer : t.offer insert (storedFile id m) =
              ⟨t.store, t.warnings ++ [refusalWarning (storedFile id m).path reason],
                t.stored⟩ := by
            rw [Tally.offer, hinsert]
          rw [hoffer, ← tally, ← ih, List.reverse_append]
          rfl

/-- A walk hands the files to the store that precede the first member whose path cannot be encoded,
whatever the store does with them. It ends at such a member, or else where the archive ends or
cannot be read on, with the number of the files that the store took. -/
theorem ingest_eq (insert : RepositoryFile → σ → Except Text σ) (id : Int) (l : Listing) (s : σ) :
    ingest insert id l s =
      { store := (tally insert id l.members ⟨s, [], 0⟩).store
        warnings := (tally insert id l.members ⟨s, [], 0⟩).warnings
        result := match l.members.find? isUnencodable with
          | some m => .error (.invalid (unencodable (repositoryPath m.name)))
          | none => ending l.failure (tally insert id l.members ⟨s, [], 0⟩).stored } :=
  ingestFrom_eq l.failure ⟨s, [], 0⟩ l.members

/-- A failure is one that a walk need not tell, or damage. -/
theorem ending_told {failure : Option ReadFailure} {stored : Nat} :
    ((∃ n, ending failure stored = .ok n) ∨ ending failure stored = .error (.unread .damaged)) ↔
      failure = none ∨ failure = some .damaged := by
  cases failure with
  | none => simp [ending]
  | some f => simp [ending]

/-- A walk ends with a number or with damage if the archive can be read but for damage, and the
paths at which its members are retained can be encoded. -/
theorem ingest_told (insert : RepositoryFile → σ → Except Text σ) (id : Int) (l : Listing) (s : σ) :
    ((∃ n, (ingest insert id l s).result = .ok n) ∨
        (ingest insert id l s).result = .error (.unread .damaged)) ↔
      (l.failure = none ∨ l.failure = some .damaged) ∧
        ∀ m ∈ l.members, ∀ path, IsRetained m path → path.isUnicode = true := by
  rw [ingest_eq, ← find?_isUnencodable_eq_none]
  cases l.members.find? isUnencodable with
  | some m => simp
  | none =>
    dsimp only
    rw [ending_told, eq_self, and_true]

/-- A walk over members whose paths can be encoded hands all retained files to the store. -/
theorem ingest_of_encodable (insert : RepositoryFile → σ → Except Text σ) (id : Int) {l : Listing}
    (s : σ) (hpaths : ∀ m ∈ l.members, ∀ path, IsRetained m path → path.isUnicode = true) :
    let t := (retainedFiles id l.members).foldl (Tally.offer insert) ⟨s, [], 0⟩
    ingest insert id l s = ⟨t.store, t.warnings, ending l.failure t.stored⟩ := by
  have hnone := find?_isUnencodable_eq_none.mpr hpaths
  rw [ingest_eq, hnone, tally_eq hnone]

/-! ### Compressed archives -/

/-- The decoded bytes of a compressed archive are those of a plain one. -/
def IsPlain (data : Bytes) : Prop := ∀ s, Gzip.decode data = .ok s → Tar.IsPlain s.data

/-- A plain archive can be read but for damage. -/
theorem IsPlain.listing {data : Bytes} (h : IsPlain data) {l : Listing}
    (hl : listing data = .ok l) : l.failure = none ∨ l.failure = some .damaged := by
  obtain ⟨t, ht, rfl⟩ := listing_eq_ok hl
  exact (h t ht).list

set_option maxRecDepth 100000 in
private theorem isPlain_twoFiles : IsPlain twoFiles := by
  have hcheck : (match Gzip.decode twoFiles with
      | .ok s => Tar.checkHeaders (fun h => !h.kind.isSpecial) s.data (s.data.drop 156) &&
        Tar.checkRecords s.data
      | .error _ => true) = true := by
    decide +kernel
  intro s hs
  rw [hs, Bool.and_eq_true] at hcheck
  exact Tar.isPlain_of_check hcheck.1 hcheck.2

/-- An archive with two files, of which the first has a name that no text can be. -/
def unencodableFirst : Bytes :=
  [31, 139, 8, 0, 0, 0, 0, 0, 0, 255, 43, 210, 255, 175, 151, 158, 207, 64, 83, 96, 0, 4, 102, 38, 38,
    96, 26, 8, 208, 105, 3, 3, 67, 35, 4, 27, 44, 110, 110, 100, 96, 194, 160, 96, 192, 64, 7, 80, 90,
    92, 146, 88, 4, 180, 146, 97, 100, 130, 130, 196, 228, 236, 196, 244, 84, 133, 68, 46, 134, 81, 48,
    2, 65, 145, 126, 210, 32, 204, 255, 102, 230, 38, 230, 163, 249, 159, 158, 249, 63, 105, 52, 255,
    143, 130, 81, 48, 10, 70, 193, 136, 2, 0, 245, 13, 214, 6, 0, 12, 0, 0]

/-- An archive that ends behind the header of a sparse file, whose map should go on. -/
def sparseHeader : Bytes :=
  [31, 139, 8, 0, 0, 0, 0, 0, 0, 255, 43, 210, 79, 212, 75, 207, 103, 160, 41, 48, 0, 2, 51, 19, 19,
    172, 226, 80, 128, 38, 110, 108, 108, 104, 192, 160, 16, 204, 48, 10, 40, 7, 140, 120, 101, 1]

/-- A path that cannot be encoded: a byte that begins no character, and an extension. -/
def unencodablePath : Text := .surrogate ⟨0x4FF, by decide⟩ :: ".go"

/-- The first file of the archive. -/
def unencodableFile : Member :=
  ⟨("r/" : Text) ++ unencodablePath, true, [112, 97, 99, 107, 97, 103, 101, 32, 97, 10]⟩

set_option maxRecDepth 100000 in
private theorem listing_unencodableFirst :
    listing unencodableFirst = .ok ⟨[unencodableFile, fileB], none⟩ ∧
      listing sparseHeader = .ok ⟨[], some .mapCut⟩ := by
  decide +kernel

end ProviderCatalog.Archive
