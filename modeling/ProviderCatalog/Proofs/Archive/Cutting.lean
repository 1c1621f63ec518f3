import ProviderCatalog.Proofs.Archive.Decoding
import ProviderCatalog.Proofs.Archive.Reading

/-!
# Archives that are cut off

The listing of an archive that is cut off agrees with the listing of the whole archive up to the
place of the cut. There it ends with damage, unless the cut lies within the first header of a
member, or within what this header announces: a header that cannot be read counts as the end of the
archive, if members have been found before it. Within the map of a sparse file it ends with a
failure of its own, or the bytes that are missing are not looked at.

A header for the next one whose size is negative takes its data from the bytes that are decoded
already, which depend on the place of the cut. The listings are compared where there is none.

## Main definitions

* `Tar.EndsInHeader`: the bytes end within the first header of a member.
* `Tar.IsForward`: no header for the next one has a negative size.
* `Tar.lastPlace`: the place where a listing ends.
* `Tar.EndsLater`, `Tar.EndsInMap`: the listings that end there without damage.

## Main results

* `Tar.entry_compared`, `Tar.step_compared`: the headers of a member, and a whole member.
* `Tar.list_of_cut`, `Tar.list_of_cutFrom`: the listing of an archive that is cut off.
-/

namespace ProviderCatalog.Archive.Tar

variable {α β γ δ : Type} {x y : Source} {P : Prop} {n k least asked : Nat}
  {reads : Text → Bool}

/-! ### Headers -/

/-- The bytes end within the first header of a member, within the extension records that this header
announces, or within a number of the blocks that continue its map. -/
def EndsInHeader (rest : Bytes) : Prop :=
  rest.length < blockSize ∨
    (∃ h, header (rest.take blockSize) = .ok h ∧
      (h.kind = .extension ∨ h.kind = .globalExtension) ∧
      rest.length < blockSize + (wholeBlocks h.size).toNat ∧
      records? (rest.drop blockSize) = none) ∨
    ∃ h map size, header (rest.take blockSize) = .ok h ∧ h.kind = .sparse ∧
      mapInHeader (rest.take blockSize) = .ok (map, size, true) ∧ EndsInNumber (rest.drop blockSize)

/-- The bytes from a place on end, without a fault, within the first header of a member. -/
structure Cursor.EndsInHeader (c : Cursor) : Prop where
  faultless : c.rest.isFaulty = false
  within : Tar.EndsInHeader c.rest.data

/-- No header for the next one has a negative size. -/
def IsForward (data : Bytes) : Prop :=
  ∀ n h, header ((data.drop n).take blockSize) = .ok h → h.kind.introduces = true → 0 ≤ h.size

theorem header_of_short {block : Bytes} (h : block.length < blockSize) :
    header block = .error .noHeader := if_pos h

theorem header_length {block : Bytes} {h : Header} (hheader : header block = .ok h) :
    blockSize ≤ block.length := by
  rcases Nat.lt_or_ge block.length blockSize with hshort | hwhole
  · exact nomatch (header_of_short hshort).symm.trans hheader
  · exact hwhole

theorem header_within {data : Bytes} {h : Header}
    (hheader : header ((data.drop n).take blockSize) = .ok h) : n + blockSize ≤ data.length := by
  have hlength := header_length hheader
  have hsize : 0 < blockSize := by decide
  rw [List.length_take, List.length_drop] at hlength
  omega

theorem IsForward.of_cut (hxy : x.data <+: y.data) (h : IsForward y.data) :
    IsForward x.data := by
  intro n header hheader hkind
  refine h n header ?_ hkind
  rwa [take_drop_eq hxy (header_within hheader)]

/-- Whether a header is about the next one or about the map of a sparse file. -/
def Kind.isSpecial (k : Kind) : Bool := k.introduces || k = .sparse

theorem header_special {block : Bytes} {h : Header} (hheader : header block = .ok h)
    (hkind : h.kind.isSpecial = true) : (Kind.ofByte (block.getD 156 0)).isSpecial = true := by
  unfold header at hheader
  iterate 5
    split at hheader
    · exact nomatch hheader
  cases hheader
  dsimp only at hkind
  split at hkind
  · exact nomatch hkind
  · exact hkind

/-- Whether a block holds no header or one that passes a check. -/
def checkHeader (p : Header → Bool) (block : Bytes) : Bool :=
  match header block with
  | .ok h => p h
  | .error _ => true

/-- Whether the special headers in some bytes pass a check. The bytes at which their kinds stand are
given, so that a block is looked at only if it may hold a special header. -/
def checkHeaders (p : Header → Bool) : Bytes → Bytes → Bool
  | _, [] => true
  | rest, kind :: kinds =>
    (!(Kind.ofByte kind).isSpecial || checkHeader p (rest.take blockSize)) &&
      checkHeaders p rest.tail kinds

theorem checkHeader_iff {p : Header → Bool} {block : Bytes} :
    checkHeader p block = true ↔ ∀ h, header block = .ok h → p h = true := by
  unfold checkHeader
  cases header block with
  | error e => simp
  | ok h => simp

/-- All headers in some bytes pass a check that every header passes which is not special. -/
theorem checkHeaders_iff {p : Header → Bool} (hp : ∀ h, h.kind.isSpecial = false → p h = true)
    (rest : Bytes) :
    checkHeaders p rest (rest.drop 156) = true ↔
      ∀ n h, header ((rest.drop n).take blockSize) = .ok h → p h = true := by
  induction hk : rest.drop 156 generalizing rest with
  | nil =>
    refine ⟨fun _ n h hheader => ?_, fun _ => rfl⟩
    have hend := header_within hheader
    have hshort := List.drop_eq_nil_iff.mp hk
    unfold blockSize at hend
    omega
  | cons kind kinds ih =>
    have htail : rest.tail.drop 156 = kinds := by
      rw [List.drop_tail, ← List.tail_drop, hk, List.tail_cons]
    have hblock : (rest.take blockSize).getD 156 0 = kind := by
      have hsome : rest[156]? = some kind := by rw [← List.head?_drop, hk, List.head?_cons]
      rw [List.getD_eq_getElem?_getD, List.getElem?_take_of_lt (by decide), hsome, Option.getD_some]
    have hfirst : (!(Kind.ofByte kind).isSpecial || checkHeader p (rest.take blockSize)) = true ↔
        ∀ h, header (rest.take blockSize) = .ok h → p h = true := by
      rw [Bool.or_eq_true, Bool.not_eq_true', checkHeader_iff, or_iff_right_iff_imp]
      intro hkind h hheader
      refine hp h (Bool.eq_false_iff.mpr fun hspecial => ?_)
      have hspecial := header_special hheader hspecial
      rw [hblock, hkind] at hspecial
      exact nomatch hspecial
    rw [checkHeaders, Bool.and_eq_true, hfirst, ih rest.tail htail]
    constructor
    · rintro ⟨hfirst, hrest⟩ (_ | n)
      · exact hfirst
      · rw [← List.drop_tail]
        exact hrest n
    · refine fun h => ⟨h 0, fun n => ?_⟩
      rw [List.drop_tail]
      exact h (n + 1)

instance : DecidablePred IsForward := fun data =>
  decidable_of_iff (checkHeaders (fun h => !h.kind.introduces || decide (0 ≤ h.size)) data
      (data.drop 156) = true) <| by
    rw [checkHeaders_iff fun h hkind => ?_]
    · simp only [IsForward, Bool.or_eq_true, Bool.not_eq_true', decide_eq_true_eq,
        ← Bool.not_eq_true, ← imp_iff_not_or]
    · rw [Kind.isSpecial, Bool.or_eq_false_iff] at hkind
      rw [hkind.1, Bool.not_false, Bool.true_or]

theorem Header.tells_eq_error {general : Extension} {h : Header} {data : Bytes} {e : Absence}
    (htells : h.tells general data = .error e) :
    e = .noHeader ∧ (h.kind = .extension ∨ h.kind = .globalExtension) ∧ records? data = none := by
  unfold tells at htells
  split at htells
  · exact nomatch htells
  · rename_i hkind
    split at htells
    · rename_i hrecords
      exact ⟨(Except.error.inj htells).symm, .inl hkind, hrecords⟩
    · exact nomatch htells
  · rename_i hkind
    split at htells
    · rename_i hrecords
      exact ⟨(Except.error.inj htells).symm, .inr hkind, hrecords⟩
    · exact nomatch htells
  · exact nomatch htells

theorem Header.tells_of_no_records {general : Extension} {h : Header} {data : Bytes}
    (hkind : h.kind = .extension ∨ h.kind = .globalExtension) (hrecords : records? data = none) :
    h.tells general data = .error .noHeader := by
  rcases hkind with hkind | hkind
  all_goals simp only [tells, hkind, hrecords]

/-- Where less than a block is left, there is no header. -/
theorem entry_of_short {c : Cursor} (hc : c.rest.isFaulty = false)
    (h : c.rest.data.length < blockSize) (count : Nat) (general : Extension) :
    entry count general c = .error .noHeader := by
  obtain ⟨c', htake, -⟩ := c.take_of_short hc h
  rw [entry.eq_def, htake, except_ok_bind]
  dsimp only
  rw [header_of_short h, except_error_bind]

theorem entry_ended (hx : x.isFaulty = false) (count : Nat) (general : Extension) :
    entry count general (x.cursor x.data.length asked) = .error .noHeader := by
  refine entry_of_short hx ?_ count general
  change (x.data.drop x.data.length).length < blockSize
  rw [List.drop_length]
  decide

/-! ### Members -/

/-- The position of a next header as two readers see it: it is the same one, or it lies at one
distance from both. -/
def SameNext (next next' : Int) (c c' : Cursor) : Prop :=
  next' = next ∨ next' - next = c'.position - c.position

/-- A member found in an archive that is cut off and in the whole archive. -/
structure SameEntry (x y : Source) (least : Nat) (e e' : Entry) : Prop where
  header : e.header = e'.header
  general : e.general = e'.general
  map : e.map = e'.map
  cursor : SameCursor x y least e.cursor e'.cursor
  next : SameNext e.next e'.next e.cursor e'.cursor

theorem SameEntry.mono {n n' : Nat} (h : n' ≤ n) {e e' : Entry} (hsame : SameEntry x y n e e') :
    SameEntry x y n' e e' :=
  ⟨hsame.header, hsame.general, hsame.map, hsame.cursor.mono h, hsame.next⟩

/-- Before the cut both readers see the next header at one position. -/
theorem SameNext.eq {next next' : Int}
    (h : SameNext next next' (x.cursor n asked) (y.cursor n asked)) : next' = next := by
  refine h.elim id fun h => ?_
  have h : next' - next = (n : Int) - n := h
  omega

theorem SameNext.eq_or {next next' : Int} {c c' : Cursor} (h : SameNext next next' c c')
    (hc : SameCursor x y least c c') : next' = next ∨ x.isFaulty = false := by
  cases hc with
  | inside _ _ => exact .inl h.eq
  | ended hx _ _ _ => exact .inr hx

theorem sameNext_afterData (h : Header) (c c' : Cursor) :
    SameNext (afterData h c.position) (afterData h c'.position) c c' := by
  right
  unfold afterData
  split
  · omega
  · rfl

theorem plainEntry_compared (general : Extension) (h : Header) (hn : n ≤ x.data.length) :
    Compared x P (SameEntry x y n) (plainEntry general h (x.cursor n asked))
      (plainEntry general h (y.cursor n asked)) := by
  unfold plainEntry
  cases general.applyTo h with
  | error e => exact .error e
  | ok named => exact .ok ⟨rfl, rfl, rfl, .inside (Nat.le_refl n) hn, .inl rfl⟩

theorem sparseEntry_compared (hxy : x.data <+: y.data) (general : Extension) (h : Header)
    (block : Bytes) (hn : n ≤ x.data.length)
    (hcut : x.isFaulty = false → ∀ map size, mapInHeader block = .ok (map, size, true) →
      EndsInNumber (x.data.drop n) → P) :
    Compared x P (SameEntry x y n) (sparseEntry general h block (x.cursor n asked))
      (sparseEntry general h block (y.cursor n asked)) := by
  unfold sparseEntry
  refine .bindSame _ fun ⟨map, size, goesOn⟩ hmap => ?_
  dsimp only
  cases goesOn with
  | false => exact .ok ⟨rfl, rfl, rfl, .inside (Nat.le_refl n) hn, .inl rfl⟩
  | true =>
    have hlength (z : Source) : (z.cursor n asked).rest.data.length = z.data.length - n :=
      List.length_drop
    rw [if_pos rfl, if_pos rfl, hlength, hlength]
    refine (continuedMap_compared hxy hn (by omega) (by omega)
      fun hx => hcut hx map size hmap).bind ?_
    rintro ⟨more, c⟩ ⟨more', c'⟩ ⟨hmore, hc⟩
    obtain rfl : more = more' := hmore
    refine .ok ⟨rfl, rfl, rfl, hc, .inr ?_⟩
    dsimp only
    omega

theorem withName_compared {e e' : Entry} (h : SameEntry x y least e e') (name : Text) :
    SameEntry x y least (e.withName name) (e'.withName name) := by
  refine ⟨?_, h.general, h.map, h.cursor, h.next⟩
  rw [Entry.withName, Entry.withName, h.header]

theorem withMap_compared (hxy : x.data <+: y.data) (extension : Extension) (rs : List Record)
    {e e' : Entry} (h : SameEntry x y least e e') :
    Compared x P (SameEntry x y least) (e.withMap extension rs) (e'.withMap extension rs) := by
  unfold Entry.withMap
  split
  · exact .bindSame _ fun ns _ => .ok ⟨h.header, h.general, rfl, h.cursor, h.next⟩
  · split
    · cases Entry.partsOf rs with
      | ok map => exact .ok ⟨h.header, h.general, rfl, h.cursor, h.next⟩
      | error _ =>
        dsimp only
        split
        · exact .damage _
        · rename_i hnext
          rcases h.next.eq_or h.cursor with hsame | hx
          · rw [if_neg (hsame ▸ hnext)]
            exact .error _
          · split
            · exact .behind hx _ _
            · exact .error _
    · split
      · refine (mapInLines_compared hxy h.cursor).bind ?_
        rintro ⟨map, c⟩ ⟨map', c'⟩ ⟨hmap, hc, hplace⟩
        obtain rfl : map = map' := hmap
        refine .ok ⟨h.header, h.general, rfl, hc, .inl (h.next.elim id fun hnext => ?_)⟩
        dsimp only
        omega
      · exact .ok h

theorem withExtension_compared (extension : Extension) {e e' : Entry}
    (h : SameEntry x y least e e') :
    Compared x P (SameEntry x y least) (e.withExtension extension)
      (e'.withExtension extension) := by
  unfold Entry.withExtension
  rw [← h.header]
  refine .bindSame _ fun header _ => .ok ⟨rfl, h.general, h.map, h.cursor, ?_⟩
  dsimp only
  split
  · exact sameNext_afterData header _ _
  · exact h.next

/-- What a header tells changes a member alike in both archives. -/
theorem change_compared (hxy : x.data <+: y.data) {general general' : Extension} {h : Header}
    {data : Bytes} {change : Entry → Except Absence Entry}
    (htells : h.tells general data = .ok (general', change)) {e e' : Entry}
    (hsame : SameEntry x y least e e') :
    Compared x P (SameEntry x y least) (change e) (change e') := by
  unfold Header.tells at htells
  split at htells
  · cases htells
    exact .ok (withName_compared hsame _)
  · split at htells
    · exact nomatch htells
    · cases htells
      exact (withMap_compared hxy _ _ hsame).bind fun _ _ => withExtension_compared _
  · split at htells
    · exact nomatch htells
    · cases htells
      dsimp only
      rw [← hsame.general]
      exact withMap_compared hxy _ _ hsame
  · cases htells
    dsimp only
    rw [← hsame.header]
    exact .ok (withName_compared hsame _)

theorem read_forward {h : Header} (c : Cursor) (hsize : 0 ≤ h.size) :
    c.read (wholeBlocks h.size) = c.take (wholeBlocks h.size).toNat := by
  have hwhole : 0 ≤ wholeBlocks h.size := by
    unfold wholeBlocks blockSize
    omega
  rw [Cursor.read, if_pos hwhole]

/-- The headers of a member in an archive that is cut off and in the whole archive. -/
theorem entry_compared (hxy : x.data <+: y.data) (hforward : IsForward x.data) (count : Nat)
    (general : Extension) (hn : n ≤ x.data.length) :
    Compared x (x.cursor n asked).EndsInHeader (SameEntry x y (n + blockSize))
      (entry count general (x.cursor n asked)) (entry count general (y.cursor n asked)) := by
  induction count using Nat.strongRecOn generalizing general n asked with
  | ind count ih =>
    rw [entry.eq_def, entry.eq_def]
    refine (take_compared hxy hn blockSize).bind ?_
    rintro _ _ (hblock | ⟨hx, hshort, hbytes, hm, hmy⟩)
    · dsimp only
      refine .bindSame _ fun h hheader => ?_
      split
      · rename_i hkind
        cases count with
        | zero => exact .error _
        | succ count =>
          dsimp only
          have hsize := hforward n h hheader hkind
          rw [read_forward _ hsize, read_forward _ hsize]
          refine (take_compared hxy hblock _).bind ?_
          rintro _ _ (hdata | ⟨hx, hshort, hbytes, hm, hmy⟩)
          · dsimp only
            refine .bindSame _ fun ⟨general, change⟩ htells => ?_
            refine (ih count (Nat.lt_succ_self count) general hdata).mapError.bind ?_
            exact fun e e' he => change_compared hxy htells (he.mono (by omega))
          · dsimp only
            cases htells : h.tells general (x.data.drop (n + blockSize)) with
            | error e =>
              obtain ⟨rfl, hextension, hrecords⟩ := Header.tells_eq_error htells
              have hrest : (x.data.drop n).length = x.data.length - n := List.length_drop
              refine .noHeader ⟨hx, .inr (.inl ⟨h, hheader, hextension, ?_, ?_⟩)⟩ _
              · change (x.data.drop n).length < _
                omega
              · change records? ((x.data.drop n).drop blockSize) = none
                rwa [List.drop_drop]
            | ok told =>
              rw [except_ok_bind, entry_ended hx]
              exact .damage _
      · split
        · rename_i hsparse
          refine sparseEntry_compared hxy general h _ hblock fun hx map size hmap hnumber => ?_
          refine ⟨hx, .inr (.inr ⟨h, map, size, hheader, hsparse, hmap, ?_⟩)⟩
          change EndsInNumber ((x.data.drop n).drop blockSize)
          rwa [List.drop_drop]
        · exact plainEntry_compared general h hblock
    · dsimp only
      have hend : (x.data.drop n).length < blockSize := by
        rw [List.length_drop]
        omega
      rw [header_of_short hend]
      exact .noHeader ⟨hx, .inl hend⟩ _

/-- Bytes that end within the first header of a member hold no header. -/
theorem entry_of_endsInHeader {c : Cursor} (h : c.EndsInHeader) {count : Nat} (hcount : 0 < count)
    (general : Extension) : entry count general c = .error .noHeader := by
  obtain ⟨count, rfl⟩ : ∃ m, count = m + 1 := ⟨count - 1, by omega⟩
  have hwhole {h : Header} (hheader : header (c.rest.data.take blockSize) = .ok h) :
      blockSize ≤ c.rest.data.length := by
    have hlength := header_length hheader
    rw [List.length_take] at hlength
    omega
  rcases h.within with hshort | ⟨h', hheader, hkind, hshort, hrecords⟩ |
    ⟨h', map, size, hheader, hkind, hmap, hnumber⟩
  · exact entry_of_short h.faultless hshort (count + 1) general
  · obtain ⟨c', htake, hrest, hfaulty⟩ := c.take_of_whole (hwhole hheader)
    have hblock := hwhole hheader
    have hlength : c'.rest.data.length < (wholeBlocks h'.size).toNat := by
      rw [hrest, List.length_drop]
      omega
    have hsize : 0 ≤ wholeBlocks h'.size := by omega
    obtain ⟨c'', hdata, -⟩ := c'.take_of_short (hfaulty.trans h.faultless) hlength
    have hintroduces : h'.kind.introduces = true := by
      rcases hkind with hkind | hkind
      all_goals rw [hkind, Kind.introduces]
    rw [entry, htake, except_ok_bind]
    dsimp only
    rw [hheader, except_ok_bind, if_pos hintroduces, Cursor.read, if_pos hsize, hdata,
      except_ok_bind]
    dsimp only
    rw [hrest, Header.tells_of_no_records hkind hrecords, except_error_bind]
  · obtain ⟨c', htake, hrest, hfaulty⟩ := c.take_of_whole (hwhole hheader)
    have hintroduces : ¬h'.kind.introduces = true := by
      rw [hkind]
      exact Bool.false_ne_true
    rw [← hrest] at hnumber
    have hcontinued := continuedMap_of_endsInNumber hnumber rfl (hfaulty.trans h.faultless)
      (Nat.lt_succ_self c'.rest.data.length)
    rw [entry, htake, except_ok_bind]
    dsimp only
    rw [hheader, except_ok_bind, if_neg hintroduces, if_pos hkind, sparseEntry, hmap,
      except_ok_bind]
    dsimp only
    rw [if_pos rfl, hcontinued, except_error_bind]

/-- Reading the data of a member fails with damage, or at a gap that is too long. -/
theorem Keeps.member {J : Cursor → Prop} (hJ : Keeps J) {e : Entry} (hc : J e.cursor) :
    Told (fun f => f = .damaged ∨ f = .gapTooLong ∧ ∃ s ∈ segments e.header.size e.cursor.position
        (e.map.getD [(0, e.header.size)]), s.place = none)
      (fun r => J r.2) (e.member reads) := by
  unfold Entry.member
  split
  · exact (hJ.restore hc _ _ _ _).bind fun _ hc => .ok hc
  · exact .ok hc

/-! ### Steps -/

/-- A member with the position of the next one, found in both archives. -/
structure SameStep (x y : Source) (least : Nat) (r r' : Step × Int) : Prop where
  member : r.1.member = r'.1.member
  general : r.1.general = r'.1.general
  cursor : SameCursor x y least r.1.cursor r'.1.cursor
  next : SameNext r.2 r'.2 r.1.cursor r'.1.cursor

/-- The data of a member in an archive that is cut off and in the whole archive. -/
theorem member_compared (hxy : x.data <+: y.data) {e e' : Entry} (h : SameEntry x y least e e') :
    Compared x P (fun r r' => SameStep x y least (⟨r.1, r.2, e.general⟩, e.next)
      (⟨r'.1, r'.2, e'.general⟩, e'.next)) (e.member reads) (e'.member reads) := by
  unfold Entry.member
  rw [← h.header, ← h.map]
  split
  · refine (content_compared hxy h.cursor _ _).bind ?_
    rintro ⟨content, c⟩ ⟨content', c'⟩ ⟨hcontent, hc, hplace⟩
    obtain rfl : content = content' := hcontent
    exact .ok ⟨rfl, h.general, hc, h.next.imp_right (Eq.trans · hplace.symm)⟩
  · exact .ok ⟨rfl, h.general, h.cursor, h.next⟩

/-- The member at a position in an archive that is cut off and in the whole archive. -/
theorem step_compared (reads : Text → Bool) (asked : Nat) (hxy : x.data <+: y.data)
    (hforward : IsForward x.data) (general : Extension) (hn : n ≤ x.data.length) {m : Nat}
    (h : n ≤ m) :
    Compared x (∃ a, (x.cursor n asked).moveTo m = .ok (x.cursor m a) ∧
        (x.cursor m a).EndsInHeader) (SameStep x y (n + blockSize))
      (step reads general (x.cursor n asked) m) (step reads general (y.cursor n asked) m) := by
  unfold step
  rcases Nat.lt_or_ge x.data.length m with hcut | hm
  · rw [moveTo_beyond hn hcut]
    exact .damage _
  · rw [moveTo_inside h hm, moveTo_inside h (Nat.le_trans hm hxy.length_le)]
    generalize (if n = m then asked else max asked m) = asked
    rw [except_ok_bind, except_ok_bind]
    refine Compared.weaken (P := (x.cursor m asked).EndsInHeader) ?_ fun hends => ⟨_, rfl, hends⟩
    refine (entry_compared hxy hforward maxNesting general hm).bind fun e e' he => ?_
    exact (member_compared hxy (he.mono (by omega))).bind fun _ _ hstep => .ok hstep

/-! ### Listings -/

/-- The extension for all headers and the place where the headers stand that a listing from a
position on does not get over. There is no such place if the reader cannot move there. -/
def lastFrom (reads : Text → Bool) :
    Nat → Extension → Cursor → Int → Option (Extension × Cursor)
  | 0, _, _, _ => none
  | bound + 1, general, c, position =>
    match step reads general c position with
    | .ok (s, next) => lastFrom reads bound s.general s.cursor next
    | .error _ => (c.moveTo position).toOption.map (general, ·)

/-- The place where the listing of an archive ends, with the extension for all headers. -/
def lastPlace (reads : Text → Bool) (s : Source) : Option (Extension × Cursor) :=
  lastFrom reads (s.data.length + 1) [] (s.cursor s.start s.start) s.start

/-- A place behind other members from which on the bytes end within the header of a member. -/
def EndsLater (last : Option (Extension × Cursor)) : Prop :=
  ∃ general c, last = some (general, c) ∧ 0 < c.position ∧ c.EndsInHeader

/-- A place from which on the bytes end, without a fault, within the map of a sparse file, so that
the headers there cannot be read. -/
def EndsInMap (last : Option (Extension × Cursor)) (f : ReadFailure) : Prop :=
  ∃ general c, last = some (general, c) ∧ c.rest.isFaulty = false ∧ f.IsMapEnd ∧
    entry maxNesting general c = .error (.failure f)

/-- How the listing of an archive ends that is cut off. -/
inductive CutEnding (x : Source) (last : Option (Extension × Cursor)) : Option ReadFailure → Prop
  | later (hx : x.isFaulty = false) (h : EndsLater last) : CutEnding x last none
  | inMap {f : ReadFailure} (h : EndsInMap last f) : CutEnding x last (some f)
  | damaged (hlater : ¬EndsLater last) (hmap : ∀ f, ¬EndsInMap last f) :
    CutEnding x last (some .damaged)

/-- The listing of an archive that is cut off beside the listing of the whole archive, unless the
whole archive cannot be listed. -/
inductive Shortened (x : Source) (last : Option (Extension × Cursor)) : Listing → Listing → Prop
  | same (l) : Shortened x last l l
  | shorter {l l'} (hmembers : l.members <+: l'.members) (hends : CutEnding x last l.failure) :
    Shortened x last l l'
  | failing {l l'} {f : ReadFailure} (hx : x.isFaulty = false) (h : l'.failure = some f) :
    Shortened x last l l'

theorem not_endsLater_none : ¬EndsLater none := fun ⟨_, _, h, _⟩ => nomatch h

theorem not_endsInMap_none (f : ReadFailure) : ¬EndsInMap none f := fun ⟨_, _, h, _⟩ => nomatch h

/-- Bytes that end within the header of a member do not end within the map of a sparse file. -/
theorem EndsLater.not_inMap {last : Option (Extension × Cursor)} (h : EndsLater last)
    (f : ReadFailure) : ¬EndsInMap last f := by
  rintro ⟨general, c, rfl, -, -, hentry⟩
  obtain ⟨general', c', heq, -, hends⟩ := h
  cases heq
  exact nomatch (entry_of_endsInHeader hends (by decide) general).symm.trans hentry

theorem EndsInMap.unique {last : Option (Extension × Cursor)} {f g : ReadFailure}
    (hf : EndsInMap last f) (hg : EndsInMap last g) : f = g := by
  obtain ⟨general, c, rfl, -, -, hentry⟩ := hf
  obtain ⟨general', c', heq, -, -, hentry'⟩ := hg
  cases heq
  cases hentry.symm.trans hentry'
  rfl

theorem listFrom_of_error {general : Extension} {c : Cursor} {position : Int} {a : Absence}
    (h : step reads general c position = .error a) (found : List Member) (bound : Nat) :
    listFrom reads found (bound + 1) general c position =
      ⟨found.reverse, a.failureAt position⟩ := by
  rw [listFrom, h]

theorem prefix_listFrom (found : List Member) (bound : Nat) (general : Extension) (c : Cursor)
    (position : Int) :
    found.reverse <+: (listFrom reads found bound general c position).members := by
  induction bound generalizing found general c position with
  | zero => exact List.prefix_rfl
  | succ bound ih =>
    rw [listFrom]
    split
    · rename_i s next _
      refine List.IsPrefix.trans ?_ (ih _ _ _ _)
      rw [List.reverse_cons]
      exact List.prefix_append _ _
    · exact List.prefix_rfl

/-- A listing whose next step fails with damage: the reader cannot move on, or it finds damage
behind the place to which it moves. -/
theorem cutEnding_of_damage {general : Extension} {c : Cursor} {position : Int}
    (hstep : step reads general c position = .error .damage) :
    CutEnding x ((c.moveTo position).toOption.map (general, ·)) (some .damaged) := by
  have hentry {c' : Cursor} {a : Absence} (hmove : c.moveTo position = .ok c')
      (hentry : entry maxNesting general c' = .error a) : a = .damage := by
    rw [step, hmove, except_ok_bind, hentry, except_error_bind] at hstep
    exact Except.error.inj hstep
  cases hmove : c.moveTo position with
  | error e => exact .damaged not_endsLater_none not_endsInMap_none
  | ok c' =>
    refine .damaged ?_ ?_
    · rintro ⟨general', c'', heq, -, hends⟩
      cases heq
      exact nomatch hentry hmove (entry_of_endsInHeader hends (by decide) general)
    · rintro f ⟨general', c'', heq, -, hf, hends⟩
      cases heq
      cases hentry hmove hends
      exact hf.ne (by decide) rfl

/-- A listing whose bytes end within the first header of a member: it is not told if the header
stands behind the first position of all. -/
theorem cutEnding_of_noHeader (hends : (x.cursor n asked).EndsInHeader) (general : Extension) :
    CutEnding x (some (general, x.cursor n asked)) (Absence.noHeader.failureAt n) := by
  rw [Absence.failureAt]
  rcases Nat.eq_zero_or_pos n with rfl | hpositive
  · refine .damaged ?_ ?_
    · rintro ⟨general', c, heq, hpositive, -⟩
      cases heq
      exact Nat.lt_irrefl 0 hpositive
    · rintro f ⟨general', c, heq, -, -, hentry⟩
      cases heq
      exact nomatch (entry_of_endsInHeader hends (by decide) general).symm.trans hentry
  · have hfirst : ¬(n : Int) = 0 := by omega
    rw [if_neg hfirst]
    exact .later hends.faultless ⟨general, _, rfl, hpositive, hends⟩

theorem step_ended (hx : x.isFaulty = false) (general : Extension) :
    step reads general (x.cursor x.data.length asked) x.data.length = .error .noHeader := by
  rw [step, moveTo_same, except_ok_bind, entry_ended hx, except_error_bind]

theorem endsInHeader_ended (hx : x.isFaulty = false) :
    (x.cursor x.data.length asked).EndsInHeader := by
  refine ⟨hx, .inl ?_⟩
  change (x.data.drop x.data.length).length < blockSize
  rw [List.drop_length]
  decide

/-- A listing that ends in the step from a place on, beside a listing that goes on as it likes. -/
theorem Shortened.of_step (found : List Member) (bound : Nat) {bound' : Nat} {general : Extension}
    {c c' : Cursor} {position position' : Int} {a : Absence}
    (hstep : step reads general c position = .error a)
    (hends : CutEnding x ((c.moveTo position).toOption.map (general, ·)) (a.failureAt position)) :
    Shortened x (lastFrom reads (bound + 1) general c position)
      (listFrom reads found (bound + 1) general c position)
      (listFrom reads found bound' general c' position') := by
  rw [listFrom_of_error hstep, lastFrom, hstep]
  exact .shorter (prefix_listFrom found bound' general c' position') hends

theorem Shortened.of_same_step (found : List Member) (bound bound' : Nat) {general : Extension}
    {c c' : Cursor} {position : Int} {a : Absence} {last : Option (Extension × Cursor)}
    (hstep : step reads general c position = .error a)
    (hstep' : step reads general c' position = .error a) :
    Shortened x last (listFrom reads found (bound + 1) general c position)
      (listFrom reads found (bound' + 1) general c' position) := by
  rw [listFrom_of_error hstep, listFrom_of_error hstep']
  exact .same _

theorem step_first (h : n ≠ 0) (general : Extension) :
    step reads general (x.cursor n asked) 0 = .error .endMark := by
  rw [step, moveTo_first h, except_error_bind]

theorem step_back {position : Int} (h : position < n) (hfirst : position ≠ 0)
    (general : Extension) :
    step reads general (x.cursor n asked) position = .error .damage := by
  rw [step, moveTo_back h hfirst, except_error_bind]

/-- The listing of an archive that is cut off, from the end of its bytes on, beside the listing of
the whole archive from a place behind the cut. -/
theorem listFrom_ended (hx : x.isFaulty = false) (hpositive : 0 < x.data.length)
    (hn : x.data.length ≤ n) (found : List Member) (bound bound' : Nat) (general : Extension)
    {asked' : Nat} {position position' : Int}
    (hnext : SameNext position position' (x.cursor x.data.length asked) (y.cursor n asked')) :
    Shortened x (lastFrom reads (bound + 1) general (x.cursor x.data.length asked) position)
      (listFrom reads found (bound + 1) general (x.cursor x.data.length asked) position)
      (listFrom reads found (bound' + 1) general (y.cursor n asked') position') := by
  have hplaces : ((y.cursor n asked').position : Int) -
      (x.cursor x.data.length asked).position = n - x.data.length := rfl
  by_cases hsame : position = x.data.length
  · -- The next header would stand where the bytes end.
    subst hsame
    refine Shortened.of_step found bound (step_ended hx general) ?_
    rw [moveTo_same]
    exact cutEnding_of_noHeader (endsInHeader_ended hx) general
  · by_cases hfirst : position = 0
    · -- The first position of all is taken for the end, unless the other reader can tell better.
      subst hfirst
      by_cases hfirst' : position' = 0
      · subst hfirst'
        exact .of_same_step found bound bound' (step_first (Nat.ne_of_gt hpositive) general)
          (step_first (by omega) general)
      · have hback : position' < n := by
          have := hnext.resolve_left hfirst'
          omega
        refine .failing hx (f := .damaged) ?_
        rw [listFrom_of_error (step_back hback hfirst' general)]
        rfl
    · have hmove : (x.cursor x.data.length asked).moveTo position = .error .damage := by
        rcases Int.lt_or_gt_of_ne hsame with hback | hahead
        · exact moveTo_back hback hfirst
        · obtain ⟨m, rfl⟩ := Int.eq_ofNat_of_zero_le (by omega : 0 ≤ position)
          exact moveTo_beyond (Nat.le_refl _) (Int.ofNat_lt.mp hahead)
      have hstep : step reads general (x.cursor x.data.length asked) position =
          .error .damage := by
        rw [step, hmove, except_error_bind]
      exact Shortened.of_step found bound hstep (cutEnding_of_damage hstep)

/-- The reader fails within the headers of a member if it comes to the end of a map. -/
theorem entry_of_mapEnd {general : Extension} (hn : n ≤ x.data.length) {m : Nat} (h : n ≤ m)
    {f : ReadFailure} (hf : f.IsMapEnd)
    (hstep : step reads general (x.cursor n asked) m = .error (.failure f)) :
    ∃ a, (x.cursor n asked).moveTo m = .ok (x.cursor m a) ∧
      entry maxNesting general (x.cursor m a) = .error (.failure f) := by
  have hdamage : f ≠ .damaged := hf.ne (by decide)
  have hgap : f ≠ .gapTooLong := hf.ne (by decide)
  rcases Nat.lt_or_ge x.data.length m with hcut | hm
  · rw [step, moveTo_beyond hn hcut, except_error_bind] at hstep
    cases hstep
    exact absurd rfl hdamage
  · rw [step, moveTo_inside h hm, except_ok_bind] at hstep
    rcases except_bind_eq_error.mp hstep with hentry | ⟨e, -, hmember⟩
    · exact ⟨_, moveTo_inside h hm, hentry⟩
    · rcases except_bind_eq_error.mp hmember with hmember | ⟨_, -, hmember⟩
      · have htold := Told.of_failure (keeps_true.member trivial) hmember
        exact (htold.elim hdamage fun h => hgap h.1).elim
      · exact nomatch hmember

/-- The listings of an archive that is cut off and of the whole archive, from a place on that lies
before the cut. -/
theorem listFrom_compared (hxy : x.data <+: y.data) (hforward : IsForward x.data)
    (found : List Member) {bound bound' : Nat} (general : Extension) (hn : n ≤ x.data.length)
    (hbound : x.data.length < n + bound) (hbound' : y.data.length < n + bound') (position : Int) :
    Shortened x (lastFrom reads bound general (x.cursor n asked) position)
      (listFrom reads found bound general (x.cursor n asked) position)
      (listFrom reads found bound' general (y.cursor n asked) position) := by
  -- Every member takes a block, so neither bound is used up.
  induction bound generalizing found bound' general n asked position with
  | zero => omega
  | succ bound ih =>
    obtain ⟨bound', rfl⟩ : ∃ b, bound' = b + 1 := ⟨bound' - 1, by have := hxy.length_le; omega⟩
    rcases Int.lt_or_le position n with hback | hahead
    · -- The size of the last member points back, in both archives.
      by_cases hfirst : position = 0
      · subst hfirst
        have hn : n ≠ 0 := by omega
        exact .of_same_step found bound bound' (step_first hn general) (step_first hn general)
      · exact .of_same_step found bound bound' (step_back hback hfirst general)
          (step_back hback hfirst general)
    · obtain ⟨m, rfl⟩ := Int.eq_ofNat_of_zero_le (Int.le_trans (Int.natCast_nonneg n) hahead)
      have hm : n ≤ m := Int.ofNat_le.mp hahead
      have hcompared := step_compared reads asked hxy hforward general hn hm
      generalize ha : step reads general (x.cursor n asked) m = a,
        hb : step reads general (y.cursor n asked) m = b at hcompared
      cases hcompared with
      | @ok r r' hsame =>
        obtain ⟨⟨member, c, general⟩, next⟩ := r
        obtain ⟨⟨member', c', general'⟩, next'⟩ := r'
        obtain ⟨rfl, rfl, hcursor, hnext⟩ := hsame
        have hsize : 0 < blockSize := by decide
        have hlist : Shortened x (lastFrom reads bound general c next)
            (listFrom reads (member :: found) bound general c next)
            (listFrom reads (member :: found) bound' general c' next') := by
          cases hcursor with
          | @inside m a hle hinside =>
            obtain rfl : next' = next := SameNext.eq hnext
            exact ih (member :: found) general hinside (by omega) (by omega) next'
          | @ended m a a' hx hle hm hmy =>
            obtain ⟨b, rfl⟩ : ∃ b, bound = b + 1 := ⟨bound - 1, by omega⟩
            obtain ⟨b', rfl⟩ : ∃ b, bound' = b + 1 := ⟨bound' - 1, by omega⟩
            exact listFrom_ended hx (by omega) hm (member :: found) b b' general hnext
        rw [lastFrom, listFrom, listFrom, ha, hb]
        exact hlist
      | error e => exact .of_same_step found bound bound' ha hb
      | damage => exact .of_step found bound ha (cutEnding_of_damage ha)
      | noHeader hcut =>
        obtain ⟨a, hmove, hends⟩ := hcut
        refine .of_step found bound ha ?_
        rw [hmove]
        exact cutEnding_of_noHeader hends general
      | mapEnd hx hf =>
        obtain ⟨a, hmove, hentry⟩ := entry_of_mapEnd hn hm hf ha
        refine .of_step found bound ha ?_
        rw [hmove]
        exact .inMap ⟨general, _, rfl, hx, hf, hentry⟩
      | behind hx _ f =>
        refine .failing hx (f := f) ?_
        rw [listFrom_of_error hb]
        rfl

/-- The listing of an archive that is cut off. -/
theorem list_of_cut (reads : Text → Bool) (hxy : x.data <+: y.data)
    (hskipped : x.skipped = y.skipped) (hforward : IsForward x.data) :
    Shortened x (lastPlace reads x) (list reads x) (list reads y) := by
  have hle := hxy.length_le
  rcases Nat.lt_or_ge x.data.length x.skipped with hcut | hinside
  · -- Not all that is passed over is there.
    have hstart : x.start = x.data.length := Nat.min_eq_right (Nat.le_of_lt hcut)
    unfold list lastPlace
    rw [hstart]
    cases hx : x.isFaulty with
    | true =>
      have hend := Nat.lt_add_of_pos_right (n := x.data.length) (k := blockSize) (by decide)
      have hstep : step reads [] (x.cursor x.data.length x.data.length) x.data.length =
          .error .damage := by
        rw [step, moveTo_same, except_ok_bind, entry.eq_def,
          take_beyond (Nat.le_refl _) hend, hx]
        rfl
      exact .of_step [] _ hstep (cutEnding_of_damage hstep)
    | false =>
      refine .of_step [] _ (step_ended hx []) ?_
      rw [moveTo_same]
      exact cutEnding_of_noHeader (endsInHeader_ended hx) []
  · have hstart : y.start = x.start := by
      rw [Source.start, Source.start, ← hskipped, Nat.min_eq_left hinside,
        Nat.min_eq_left (Nat.le_trans hinside hle)]
    have hn : x.start ≤ x.data.length := Nat.min_le_right _ _
    unfold list lastPlace
    rw [hstart]
    exact listFrom_compared hxy hforward [] [] hn (by omega) (by omega) x.start

/-- What a cut leaves of an archive that can be listed: all of its members, or the first ones. -/
theorem list_of_cutFrom (h : x.CutFrom y) (hskipped : x.skipped = y.skipped)
    (hforward : IsForward y.data) (hy : (list reads y).failure = none) :
    list reads x = list reads y ∨ (list reads x).members <+: (list reads y).members ∧
      CutEnding x (lastPlace reads x) (list reads x).failure := by
  cases h with
  | beginning h =>
    have hshortened := list_of_cut reads h hskipped (hforward.of_cut h)
    revert hshortened hy
    generalize list reads x = l, list reads y = l'
    intro hy hshortened
    cases hshortened with
    | same => exact .inl rfl
    | shorter hmembers hends => exact .inr ⟨hmembers, hends⟩
    | failing hx hfailure => exact nomatch hy.symm.trans hfailure
  | beyond h hfaulty =>
    -- The whole archive is listed before the fault in it, and so is what a cut leaves.
    have hshortened := list_of_cut reads h hskipped.symm hforward
    revert hshortened hy
    generalize list reads x = l, list reads y = l'
    intro hy hshortened
    cases hshortened with
    | same => exact .inl rfl
    | shorter hmembers hends =>
      rw [hy] at hends
      cases hends with
      | later hx h => exact nomatch hfaulty.symm.trans hx
    | failing hx hfailure => exact nomatch hfaulty.symm.trans hx

end ProviderCatalog.Archive.Tar
