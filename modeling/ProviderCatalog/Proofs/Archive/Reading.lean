import ProviderCatalog.Archive.Tar
import ProviderCatalog.Proofs.Computation
import Mathlib.Data.List.Infix

/-!
# Reading bytes that are cut off

Two readers stand side by side, one in bytes that are cut off and the other one in all of the bytes.
They find the same until the first one comes to the end of its bytes. From there on it finds
nothing: what it still needs is missing, which is damage, or a number or a line without an end where
the map of a sparse file should go on.

## Main definitions

* `Tar.Compared`: what is found in bytes that are cut off and in all of the bytes.
* `Tar.SameCursor`: two readers that stand side by side.
* `Tar.EndsInNumber`: the bytes end within a number of a map.
* `Tar.Told`, `Tar.Keeps`: what reading may fail with, and where it leaves the reader.

## Main results

* `Tar.take_compared`: bytes that are read.
* `Tar.continuedMap_compared`, `Tar.mapInLines_compared`: the map of a sparse file.
* `Tar.content_compared`: the content of a file.
* `Tar.Keeps.restore`: the failures of reading a content.
-/

namespace ProviderCatalog.Archive

/-- The failures that tell that the map of a sparse file is not there to its end. -/
def ReadFailure.IsMapEnd (f : ReadFailure) : Prop := f = .mapCut ∨ f = .lineOpen

instance : DecidablePred ReadFailure.IsMapEnd := fun f =>
  inferInstanceAs (Decidable (f = .mapCut ∨ f = .lineOpen))

theorem ReadFailure.IsMapEnd.ne {f g : ReadFailure} (hf : f.IsMapEnd) (hg : ¬g.IsMapEnd) : f ≠ g :=
  fun h => hg (h ▸ hf)

namespace Tar

variable {α β γ δ : Type} {x y : Source} {P : Prop} {Q : α → β → Prop} {R : γ → δ → Prop}
  {n k least asked : Nat}

/-! ### Results side by side -/

/-- What is found in bytes that are cut off and in all of the bytes: results with `Q`, or the same
absence. Where the bytes are cut off, there may be damage, no header, which takes `P`, or the end of
a map; and only in all of the bytes there may be a failure that lies behind the cut. -/
inductive Compared (x : Source) (P : Prop) (Q : α → β → Prop) :
    Except Absence α → Except Absence β → Prop
  | ok {a b} (h : Q a b) : Compared x P Q (.ok a) (.ok b)
  | error (e) : Compared x P Q (.error e) (.error e)
  | damage (r) : Compared x P Q (.error .damage) r
  | noHeader (h : P) (r) : Compared x P Q (.error .noHeader) r
  | mapEnd {f : ReadFailure} (hx : x.isFaulty = false) (hf : f.IsMapEnd) (r) :
    Compared x P Q (.error (.failure f)) r
  | behind (hx : x.isFaulty = false) (r) (f : ReadFailure) : Compared x P Q r (.error (.failure f))

namespace Compared

variable {a : Except Absence α} {b : Except Absence β}

theorem bind {f : α → Except Absence γ} {g : β → Except Absence δ} (h : Compared x P Q a b)
    (hfg : ∀ a b, Q a b → Compared x P R (f a) (g b)) : Compared x P R (a >>= f) (b >>= g) := by
  cases h with
  | ok h => exact hfg _ _ h
  | error e => exact .error e
  | damage => exact .damage _
  | noHeader h => exact .noHeader h _
  | mapEnd hx hf => exact .mapEnd hx hf _
  | behind hx _ f => exact .behind hx _ f

/-- What both readers work out in the same way, without reading. -/
theorem bindSame (r : Except Absence α) {f : α → Except Absence γ} {g : α → Except Absence δ}
    (hfg : ∀ a, r = .ok a → Compared x P R (f a) (g a)) : Compared x P R (r >>= f) (r >>= g) := by
  cases r with
  | ok a => exact hfg a rfl
  | error e => exact .error e

theorem weaken {P' : Prop} (h : Compared x P Q a b) (hP : P → P') : Compared x P' Q a b := by
  cases h with
  | ok h => exact .ok h
  | error e => exact .error e
  | damage => exact .damage _
  | noHeader h => exact .noHeader (hP h) _
  | mapEnd hx hf => exact .mapEnd hx hf _
  | behind hx _ f => exact .behind hx _ f

/-- Behind a header for the next one, a header that is missing is damage. -/
theorem mapError {P' : Prop} (h : Compared x P Q a b) :
    Compared x P' Q (a.mapError Absence.behind) (b.mapError Absence.behind) := by
  cases h with
  | ok h => exact .ok h
  | error e => exact .error _
  | damage => exact .damage _
  | noHeader => exact .damage _
  | mapEnd hx hf => exact .mapEnd hx hf _
  | behind hx _ f => exact .behind hx _ f

end Compared

/-! ### Bytes -/

theorem Cursor.take_of_short {c : Cursor} (hc : c.rest.isFaulty = false)
    (h : c.rest.data.length < k) :
    ∃ c', c.take k = .ok (c.rest.data, c') ∧ c'.rest.data = [] ∧ c'.rest.isFaulty = false := by
  have htake : c.rest.data.take k = c.rest.data := List.take_of_length_le (Nat.le_of_lt h)
  have hdrop : c.rest.data.drop k = [] := List.drop_eq_nil_of_le (Nat.le_of_lt h)
  simp [Cursor.take, htake, hdrop, hc]

theorem Cursor.take_of_whole {c : Cursor} (h : k ≤ c.rest.data.length) :
    ∃ c', c.take k = .ok (c.rest.data.take k, c') ∧ c'.rest.data = c.rest.data.drop k ∧
      c'.rest.isFaulty = c.rest.isFaulty := by
  simp [Cursor.take, List.length_take_of_le h]

theorem take_inside (h : n + k ≤ x.data.length) :
    (x.cursor n asked).take k =
      .ok ((x.data.drop n).take k, x.cursor (n + k) (max asked (n + k))) := by
  have hlength : ((x.data.drop n).take k).length = k := by
    rw [List.length_take_of_le]
    rw [List.length_drop]
    omega
  simp [Cursor.take, Source.cursor, hlength]

theorem take_beyond (hn : n ≤ x.data.length) (h : x.data.length < n + k) :
    (x.cursor n asked).take k =
      if x.isFaulty then .error .damage
      else .ok (x.data.drop n, x.cursor x.data.length (max asked (n + k))) := by
  have hrest : (x.data.drop n).take k = x.data.drop n := by
    rw [List.take_of_length_le]
    rw [List.length_drop]
    omega
  have hlength : n + (x.data.drop n).length = x.data.length := by
    rw [List.length_drop]
    omega
  have hshort : (x.data.drop n).length < k := by omega
  have hnone : (x.data.drop n).drop k = [] := List.drop_eq_nil_of_le (Nat.le_of_lt hshort)
  have hend : x.data.drop x.data.length = [] := List.drop_length
  simp only [Cursor.take, Source.cursor, hrest, hlength, hnone, hend, hshort, decide_true,
    Bool.true_and]

/-- What lies before the cut is in all of the bytes, too. -/
theorem take_drop_eq (hxy : x.data <+: y.data) (h : n + k ≤ x.data.length) :
    (y.data.drop n).take k = (x.data.drop n).take k := by
  obtain ⟨rest, hrest⟩ := hxy
  rw [← hrest, List.drop_append_of_le_length (by omega), List.take_append_of_le_length]
  rw [List.length_drop]
  omega

/-- Bytes that are read by two readers who stand at one place: the same ones, up to one place, or,
if the bytes that are cut off end before, what is left of them and more. -/
inductive SameTake (x y : Source) (n k : Nat) : Bytes × Cursor → Bytes × Cursor → Prop
  | inside {asked : Nat} (h : n + k ≤ x.data.length) :
    SameTake x y n k ((x.data.drop n).take k, x.cursor (n + k) asked)
      ((x.data.drop n).take k, y.cursor (n + k) asked)
  | ended {bytes : Bytes} {m asked asked' : Nat} (hx : x.isFaulty = false)
      (h : x.data.length < n + k) (hbytes : x.data.drop n <+: bytes) (hm : x.data.length ≤ m)
      (hmy : m ≤ y.data.length) :
    SameTake x y n k (x.data.drop n, x.cursor x.data.length asked) (bytes, y.cursor m asked')

theorem take_compared (hxy : x.data <+: y.data) (hn : n ≤ x.data.length) (k : Nat) :
    Compared x P (SameTake x y n k) ((x.cursor n asked).take k) ((y.cursor n asked).take k) := by
  rcases Nat.lt_or_ge x.data.length (n + k) with hshort | hinside
  · rw [take_beyond hn hshort]
    cases hx : x.isFaulty with
    | true => exact .damage _
    | false =>
      rw [if_neg Bool.false_ne_true]
      have hlength : (x.data.drop n).length ≤ k := by
        rw [List.length_drop]
        omega
      rcases Nat.lt_or_ge y.data.length (n + k) with hshorty | hinsidey
      · rw [take_beyond (Nat.le_trans hn hxy.length_le) hshorty]
        split
        · exact .behind hx _ _
        · exact .ok (.ended hx hshort (hxy.drop n) hxy.length_le (Nat.le_refl _))
      · rw [take_inside hinsidey]
        refine .ok (.ended hx hshort ?_ (Nat.le_of_lt hshort) hinsidey)
        exact List.prefix_take_iff.mpr ⟨hxy.drop n, hlength⟩
  · rw [take_inside hinside, take_inside (Nat.le_trans hinside hxy.length_le),
      take_drop_eq hxy hinside]
    exact .ok (.inside hinside)

theorem takeAll_inside (h : n + k ≤ x.data.length) :
    (x.cursor n asked).takeAll k =
      .ok ((x.data.drop n).take k, x.cursor (n + k) (max asked (n + k))) := by
  have hlength : ¬((x.data.drop n).take k).length < k := by
    rw [List.length_take, List.length_drop]
    omega
  rw [Cursor.takeAll, take_inside h, except_ok_bind]
  dsimp only
  rw [if_neg hlength]

theorem takeAll_beyond (hn : n ≤ x.data.length) (h : x.data.length < n + k) :
    (x.cursor n asked).takeAll k = .error .damage := by
  rw [Cursor.takeAll, take_beyond hn h]
  cases x.isFaulty with
  | true => rfl
  | false =>
    have hshort : (x.data.drop n).length < k := by
      rw [List.length_drop]
      omega
    rw [if_neg Bool.false_ne_true, except_ok_bind]
    dsimp only
    rw [if_pos hshort]

/-! ### Places -/

/-- Two readers that stand side by side, not in front of a place: at one place before the cut, or
the first one at the end of its bytes and the other one behind it. -/
inductive SameCursor (x y : Source) (least : Nat) : Cursor → Cursor → Prop
  | inside {n asked : Nat} (h : least ≤ n) (hn : n ≤ x.data.length) :
    SameCursor x y least (x.cursor n asked) (y.cursor n asked)
  | ended {n asked asked' : Nat} (hx : x.isFaulty = false) (h : least ≤ x.data.length)
      (hn : x.data.length ≤ n) (hny : n ≤ y.data.length) :
    SameCursor x y least (x.cursor x.data.length asked) (y.cursor n asked')

theorem SameCursor.mono {n n' : Nat} (h : n' ≤ n) {c c' : Cursor} (hsame : SameCursor x y n c c') :
    SameCursor x y n' c c' := by
  cases hsame with
  | inside hle hn => exact .inside (Nat.le_trans h hle) hn
  | ended hx hle hn hny => exact .ended hx (Nat.le_trans h hle) hn hny

theorem moveTo_same : (x.cursor n asked).moveTo n = .ok (x.cursor n asked) := if_pos rfl

theorem moveTo_first (h : n ≠ 0) : (x.cursor n asked).moveTo 0 = .error .endMark := by
  have hn : ¬(0 : Int) = n := by omega
  exact (if_neg hn).trans (if_pos rfl)

theorem moveTo_back {position : Int} (h : position < n) (hfirst : position ≠ 0) :
    (x.cursor n asked).moveTo position = .error .damage :=
  (if_neg (Int.ne_of_lt h)).trans ((if_neg hfirst).trans (if_pos h))

theorem moveTo_ahead (h : 0 < k) :
    (x.cursor n asked).moveTo (n + k : Nat) = ((x.cursor n asked).takeAll k).map (·.2) := by
  have hne : ¬((n + k : Nat) : Int) = n := by omega
  have hfirst : ¬((n + k : Nat) : Int) = 0 := by omega
  have hback : ¬((n + k : Nat) : Int) < n := by omega
  have hsize : (((n + k : Nat) : Int) - n).toNat = k := by omega
  refine (if_neg hne).trans ((if_neg hfirst).trans ((if_neg hback).trans ?_))
  exact congrArg (fun k => ((x.cursor n asked).takeAll k).map (·.2)) hsize

theorem moveTo_inside {m : Nat} (h : n ≤ m) (hm : m ≤ x.data.length) :
    (x.cursor n asked).moveTo m = .ok (x.cursor m (if n = m then asked else max asked m)) := by
  rcases Nat.lt_or_eq_of_le h with hlt | rfl
  · obtain ⟨k, hk, rfl⟩ : ∃ k, 0 < k ∧ m = n + k := ⟨m - n, by omega, by omega⟩
    rw [moveTo_ahead hk, takeAll_inside hm, if_neg (Nat.ne_of_lt hlt)]
    rfl
  · rw [moveTo_same, if_pos rfl]

theorem moveTo_beyond {m : Nat} (hn : n ≤ x.data.length) (hm : x.data.length < m) :
    (x.cursor n asked).moveTo m = .error .damage := by
  obtain ⟨k, hk, rfl⟩ : ∃ k, 0 < k ∧ m = n + k := ⟨m - n, by omega, by omega⟩
  rw [moveTo_ahead hk, takeAll_beyond hn hm]
  rfl

/-! ### Maps in headers -/

theorem mapNumber_eq_error {block : Bytes} {position : Nat} {e : Absence}
    (h : mapNumber block position = .error e) : e = .failure .mapCut ∨ e = .noHeader := by
  unfold mapNumber at h
  split at h
  · exact .inl (Except.error.inj h).symm
  · split at h
    · exact .inr (Except.error.inj h).symm
    · exact nomatch h

theorem mapInFields_eq_error {block : Bytes} {position count : Nat} {e : Absence}
    (h : mapInFields block position count = .error e) : e = .failure .mapCut ∨ e = .noHeader := by
  induction count generalizing position with
  | zero => exact nomatch h
  | succ count ih =>
    rw [mapInFields] at h
    rcases except_bind_eq_error.mp h with hoffset | ⟨offset, -, h⟩
    · exact mapNumber_eq_error hoffset
    · rcases except_bind_eq_error.mp h with hlength | ⟨length, -, h⟩
      · exact mapNumber_eq_error hlength
      · rcases except_bind_eq_error.mp h with hmap | ⟨map, -, h⟩
        · exact ih hmap
        · exact nomatch h

theorem continuation_eq_error {block : Bytes} {e : Absence} (h : continuation block = .error e) :
    e = .failure .mapCut ∨ e = .noHeader := by
  rcases except_bind_eq_error.mp h with hmap | ⟨map, -, h⟩
  · exact mapInFields_eq_error hmap
  · split at h
    · exact .inl (Except.error.inj h).symm
    · exact nomatch h

theorem mapNumber_append {block : Bytes} {position : Nat} (h : position + 12 ≤ block.length)
    (more : Bytes) : mapNumber (block ++ more) position = mapNumber block position := by
  unfold mapNumber slice
  rw [List.take_append_of_le_length h]

theorem mapInFields_append {block : Bytes} {position count : Nat}
    (h : position + 24 * count ≤ block.length) (more : Bytes) :
    mapInFields (block ++ more) position count = mapInFields block position count := by
  induction count generalizing position with
  | zero => rfl
  | succ count ih =>
    rw [mapInFields, mapInFields, mapNumber_append (by omega), mapNumber_append (by omega),
      ih (by omega)]

/-- A block that can be read does not depend on what follows its last byte. -/
theorem continuation_append {block : Bytes} {r : Map × Bool} (h : continuation block = .ok r)
    (more : Bytes) : continuation (block ++ more) = .ok r := by
  have hlength : 504 < block.length := by
    obtain ⟨map, -, h⟩ := except_bind_eq_ok.mp h
    split at h
    · exact nomatch h
    · rename_i hlast
      exact (List.getElem?_eq_some_iff.mp hlast).1
  rw [← h, continuation, continuation, mapInFields_append (by omega),
    List.getElem?_append_left hlength]

/-- The bytes end within a block that continues a map, in a number that cannot be read. -/
inductive EndsInNumber : Bytes → Prop
  | here {rest : Bytes} (hshort : rest.length < blockSize)
      (hnumber : continuation rest = .error .noHeader) : EndsInNumber rest
  | later {rest : Bytes} {map : Map} (hwhole : blockSize ≤ rest.length)
      (hmap : continuation (rest.take blockSize) = .ok (map, true))
      (hrest : EndsInNumber (rest.drop blockSize)) : EndsInNumber rest

theorem continuedMap_ended (hx : x.isFaulty = false) (bound : Nat) :
    continuedMap bound (x.cursor x.data.length asked) = .error (.failure .mapCut) := by
  cases bound with
  | zero => rfl
  | succ bound =>
    have hend := Nat.lt_add_of_pos_right (n := x.data.length) (k := blockSize) (by decide)
    rw [continuedMap, take_beyond (Nat.le_refl _) hend, hx, if_neg Bool.false_ne_true,
      except_ok_bind, List.drop_length]
    rfl

theorem continuedMap_of_endsInNumber {rest : Bytes} (h : EndsInNumber rest) {c : Cursor}
    (hrest : c.rest.data = rest) (hc : c.rest.isFaulty = false) {bound : Nat}
    (hbound : rest.length < bound) : continuedMap bound c = .error .noHeader := by
  induction h generalizing c bound with
  | here hshort hnumber =>
    subst hrest
    obtain ⟨bound, rfl⟩ : ∃ b, bound = b + 1 := ⟨bound - 1, by omega⟩
    obtain ⟨c', htake, -⟩ := c.take_of_short hc hshort
    rw [continuedMap, htake, except_ok_bind]
    dsimp only
    rw [hnumber, except_error_bind]
  | later hwhole hmap hrest' ih =>
    subst hrest
    obtain ⟨bound, rfl⟩ : ∃ b, bound = b + 1 := ⟨bound - 1, by omega⟩
    obtain ⟨c', htake, hdata, hfaulty⟩ := c.take_of_whole hwhole
    have hsize : 0 < blockSize := by decide
    have hlength : (c.rest.data.drop blockSize).length < bound := by
      rw [List.length_drop]
      omega
    rw [continuedMap, htake, except_ok_bind]
    dsimp only
    rw [hmap, except_ok_bind]
    dsimp only
    rw [if_pos rfl, ih hdata (hfaulty.trans hc) hlength, except_error_bind]

/-- The blocks that continue a map, in bytes that are cut off and in all of the bytes. -/
theorem continuedMap_compared (hxy : x.data <+: y.data) {bound bound' : Nat}
    (hn : n ≤ x.data.length) (hbound : x.data.length < n + bound)
    (hbound' : y.data.length < n + bound')
    (hcut : x.isFaulty = false → EndsInNumber (x.data.drop n) → P) :
    Compared x P (fun r r' => r.1 = r'.1 ∧ SameCursor x y n r.2 r'.2)
      (continuedMap bound (x.cursor n asked)) (continuedMap bound' (y.cursor n asked)) := by
  -- Every block takes a byte, so neither bound is used up.
  induction bound generalizing bound' n asked with
  | zero => omega
  | succ bound ih =>
    obtain ⟨bound', rfl⟩ : ∃ b, bound' = b + 1 := ⟨bound' - 1, by have := hxy.length_le; omega⟩
    have hrest : (x.data.drop n).length = x.data.length - n := List.length_drop
    rw [continuedMap, continuedMap]
    refine (take_compared hxy hn blockSize).bind ?_
    rintro _ _ (hwhole | ⟨hx, hshort, hbytes, hm, hmy⟩)
    · dsimp only
      refine .bindSame _ fun ⟨map, goesOn⟩ hmap => ?_
      dsimp only
      cases goesOn with
      | false => exact .ok ⟨rfl, .inside (Nat.le_add_right _ _) hwhole⟩
      | true =>
        have hsize : 0 < blockSize := by decide
        refine (ih hwhole (by omega) (by omega) fun hx hrest => ?_).bind ?_
        · refine hcut hx (.later (by omega) hmap ?_)
          rwa [List.drop_drop]
        · rintro ⟨more, c⟩ ⟨more', c'⟩ ⟨hmore, hc⟩
          obtain rfl : more = more' := hmore
          exact .ok ⟨rfl, hc.mono (Nat.le_add_right _ _)⟩
    · dsimp only
      cases hmap : continuation (x.data.drop n) with
      | error e =>
        rcases continuation_eq_error hmap with rfl | rfl
        · exact .mapEnd hx (.inl rfl) _
        · exact .noHeader (hcut hx (.here (by omega) hmap)) _
      | ok r =>
        obtain ⟨more, rfl⟩ := hbytes
        obtain ⟨map, goesOn⟩ := r
        rw [continuation_append hmap, except_ok_bind, except_ok_bind]
        cases goesOn with
        | false => exact .ok ⟨rfl, .ended hx hn hm hmy⟩
        | true =>
          rw [if_pos rfl, continuedMap_ended hx]
          exact .mapEnd hx (.inl rfl) _

/-! ### Maps in lines -/

/-- What two readers have read and not used, side by side. -/
inductive SameUnused (x y : Source) (least : Nat) : Bytes × Cursor → Bytes × Cursor → Prop
  | inside {unused : Bytes} {n asked : Nat} (h : least ≤ n) (hn : n ≤ x.data.length) :
    SameUnused x y least (unused, x.cursor n asked) (unused, y.cursor n asked)
  | ended {unused unused' : Bytes} {n asked asked' : Nat} (hx : x.isFaulty = false)
      (h : least ≤ x.data.length) (hn : x.data.length ≤ n) (hny : n ≤ y.data.length)
      (hunused : unused <+: unused') :
    SameUnused x y least (unused, x.cursor x.data.length asked) (unused', y.cursor n asked')

theorem SameUnused.cursor {r r' : Bytes × Cursor} (h : SameUnused x y least r r') :
    SameCursor x y least r.2 r'.2 := by
  cases h with
  | inside h hn => exact .inside h hn
  | ended hx h hn hny => exact .ended hx h hn hny

theorem firstLine_append {unused : Bytes} (h : unused.contains 0x0A = true) (more : Bytes)
    (c : Cursor) :
    firstLine (unused ++ more) c = .ok (unused.takeWhile (· != 0x0A),
      (unused.dropWhile (· != 0x0A)).tail ++ more, c) := by
  have hmem : (0x0A : UInt8) ∈ unused := by simpa using h
  have hlong : (unused ++ more).contains 0x0A = true := by simp [hmem]
  obtain ⟨line, rest, hline, rfl⟩ : ∃ line rest, (∀ b ∈ line, (b != 0x0A) = true) ∧
      unused = line ++ 0x0A :: rest := by
    obtain ⟨line, rest, heq, hnone⟩ := List.eq_append_cons_of_mem hmem
    exact ⟨line, rest, fun b hb => by simpa using fun h : b = 0x0A => hnone (h ▸ hb), heq⟩
  rw [firstLine, if_pos hlong]
  simp [List.takeWhile_append_of_pos hline, List.dropWhile_append_of_pos hline]

theorem firstLine_eq_error {unused : Bytes} (h : unused.contains 0x0A ≠ true) (c : Cursor) :
    firstLine unused c = .error (.failure .lineOpen) := if_neg h

/-- The first line of what has been read, where one reader has read more than the other one. -/
theorem firstLine_compared (hx : x.isFaulty = false) {unused unused' : Bytes} {asked' : Nat}
    (hunused : unused <+: unused') (h : least ≤ x.data.length) (hn : x.data.length ≤ n)
    (hny : n ≤ y.data.length) :
    Compared x P (fun r r' => r.1 = r'.1 ∧ SameUnused x y least r.2 r'.2)
      (firstLine unused (x.cursor x.data.length asked))
      (firstLine unused' (y.cursor n asked')) := by
  obtain ⟨more, rfl⟩ := hunused
  by_cases hline : unused.contains 0x0A = true
  · rw [firstLine_append hline, firstLine, if_pos hline]
    exact .ok ⟨rfl, .ended hx h hn hny (List.prefix_append _ _)⟩
  · rw [firstLine_eq_error hline]
    exact .mapEnd hx (.inr rfl) _

theorem mapLine_ended (hx : x.isFaulty = false) {unused : Bytes}
    (hline : unused.contains 0x0A ≠ true) :
    mapLine unused (x.cursor x.data.length asked) = .error (.failure .lineOpen) := by
  have hend := Nat.lt_add_of_pos_right (n := x.data.length) (k := blockSize) (by decide)
  rw [mapLine, if_neg hline, take_beyond (Nat.le_refl _) hend, hx, if_neg Bool.false_ne_true,
    except_ok_bind, List.drop_length]
  dsimp only
  rw [List.append_nil, firstLine_eq_error hline]

theorem mapLine_compared (hxy : x.data <+: y.data) {r r' : Bytes × Cursor}
    (h : SameUnused x y least r r') :
    Compared x P (fun r r' => r.1 = r'.1 ∧ SameUnused x y least r.2 r'.2)
      (mapLine r.1 r.2) (mapLine r'.1 r'.2) := by
  cases h with
  | @inside unused n asked h hn =>
    dsimp only
    by_cases hline : unused.contains 0x0A = true
    · rw [mapLine, mapLine, if_pos hline, if_pos hline, firstLine, firstLine, if_pos hline,
        if_pos hline]
      exact .ok ⟨rfl, .inside h hn⟩
    · rw [mapLine, mapLine, if_neg hline, if_neg hline]
      refine (take_compared hxy hn blockSize).bind ?_
      rintro _ _ (hwhole | ⟨hx, hshort, hbytes, hm, hmy⟩)
      · dsimp only
        unfold firstLine
        split
        · exact .ok ⟨rfl, .inside (Nat.le_add_right_of_le h) hwhole⟩
        · exact .error _
      · exact firstLine_compared hx ((List.prefix_append_right_inj _).mpr hbytes)
          (Nat.le_trans h hn) hm hmy
  | @ended unused unused' n asked asked' hx h hn hny hunused =>
    dsimp only
    by_cases hline : unused.contains 0x0A = true
    · have hline' : unused'.contains 0x0A = true := by
        simp only [List.contains_iff_mem] at hline ⊢
        exact hunused.subset hline
      rw [mapLine, mapLine, if_pos hline, if_pos hline']
      exact firstLine_compared hx hunused h hn hny
    · rw [mapLine_ended hx hline]
      exact .mapEnd hx (.inr rfl) _

theorem mapNumbers_compared (hxy : x.data <+: y.data) (count : Nat) {r r' : Bytes × Cursor}
    (h : SameUnused x y least r r') :
    Compared x P (fun s s' => s.1 = s'.1 ∧ SameCursor x y least s.2 s'.2)
      (mapNumbers count r.1 r.2) (mapNumbers count r'.1 r'.2) := by
  induction count generalizing r r' with
  | zero => exact .ok ⟨rfl, h.cursor⟩
  | succ count ih =>
    rw [mapNumbers, mapNumbers]
    refine (mapLine_compared hxy h).bind ?_
    rintro ⟨line, r⟩ ⟨line', r'⟩ ⟨hline, hr⟩
    obtain rfl : line = line' := hline
    refine .bindSame _ fun number _ => (ih hr).bind ?_
    rintro ⟨ns, c⟩ ⟨ns', c'⟩ ⟨hns, hc⟩
    obtain rfl : ns = ns' := hns
    exact .ok ⟨rfl, hc⟩

theorem mapInLines_ended (hx : x.isFaulty = false) :
    mapInLines (x.cursor x.data.length asked) = .error (.failure .lineOpen) := by
  rw [mapInLines, mapLine_ended hx (by decide), except_error_bind]

/-- The map that stands in lines, in bytes that are cut off and in all of the bytes. If it is there,
both readers have come to its lines at one place. -/
theorem mapInLines_compared (hxy : x.data <+: y.data) {c c' : Cursor}
    (h : SameCursor x y least c c') :
    Compared x P (fun r r' => r.1 = r'.1 ∧ SameCursor x y least r.2 r'.2 ∧
      c'.position = c.position) (mapInLines c) (mapInLines c') := by
  cases h with
  | @inside n asked h hn =>
    have hstart : SameUnused x y least ([], x.cursor n asked) ([], y.cursor n asked) :=
      .inside h hn
    refine (mapLine_compared hxy hstart).bind ?_
    rintro ⟨line, r⟩ ⟨line', r'⟩ ⟨hline, hr⟩
    obtain rfl : line = line' := hline
    refine .bindSame _ fun count _ => (mapNumbers_compared hxy _ hr).bind ?_
    rintro ⟨ns, c⟩ ⟨ns', c'⟩ ⟨hns, hc⟩
    obtain rfl : ns = ns' := hns
    exact .ok ⟨rfl, hc, rfl⟩
  | ended hx _ _ _ =>
    rw [mapInLines_ended hx]
    exact .mapEnd hx (.inr rfl) _

/-! ### Contents -/

/-- A stretch whose bytes stand elsewhere in an archive. -/
def Segment.moved (d : Int) (s : Segment) : Segment := { s with place := s.place.map (· + d) }

theorem segmentsFrom_moved (size last place d : Int) (map : Map) :
    segmentsFrom size last (place + d) map =
      (segmentsFrom size last place map).map (Segment.moved d) := by
  induction map generalizing last place with
  | nil =>
    unfold segmentsFrom
    split <;> rfl
  | cons part map ih =>
    have hplace : place + d + part.2 = place + part.2 + d := by omega
    rw [segmentsFrom, segmentsFrom, hplace, ih]
    split <;> rfl

/-- Bytes from a position on, for readers at a distance. The first one finds none at its end. -/
theorem takeAt_compared (hxy : x.data <+: y.data) {c c' : Cursor} (h : SameCursor x y least c c')
    {d : Int} (hd : (c'.position : Int) - c.position = d) (position : Int) (hk : 0 < k) :
    Compared x P (fun r r' => r.1 = r'.1 ∧ SameCursor x y least r.2 r'.2 ∧
      (r'.2.position : Int) - r.2.position = d)
      (c.takeAt position k) (c'.takeAt (position + d) k) := by
  cases h with
  | @inside n asked h hn =>
    obtain rfl : d = 0 := by
      rw [← hd]
      exact Int.sub_self _
    rw [Int.add_zero]
    rcases Int.lt_or_le position n with hback | hahead
    · have hnone : (x.cursor n asked).takeAt position k = .error .damage := if_pos hback
      rw [hnone]
      exact .damage _
    · obtain ⟨m, rfl⟩ : ∃ m : Nat, position = (n + m : Nat) := ⟨(position - n).toNat, by omega⟩
      have hback : ¬((n + m : Nat) : Int) < n := by omega
      have hsize : (((n + m : Nat) : Int) - n).toNat = m := by omega
      have htakeAt (z : Source) : (z.cursor n asked).takeAt (n + m : Nat) k =
          (z.cursor n asked).takeAll m >>= fun r => r.2.takeAll k := by
        refine (if_neg hback).trans ?_
        exact congrArg (fun m => (z.cursor n asked).takeAll m >>= fun r => r.2.takeAll k) hsize
      rw [htakeAt, htakeAt]
      rcases Nat.lt_or_ge x.data.length (n + m) with hshort | hm
      · rw [takeAll_beyond hn hshort]
        exact .damage _
      · rw [takeAll_inside hm, takeAll_inside (Nat.le_trans hm hxy.length_le), except_ok_bind,
          except_ok_bind]
        dsimp only
        rcases Nat.lt_or_ge x.data.length (n + m + k) with hshort | hbytes
        · rw [takeAll_beyond hm hshort]
          exact .damage _
        · rw [takeAll_inside hbytes, takeAll_inside (Nat.le_trans hbytes hxy.length_le),
            take_drop_eq hxy hbytes]
          exact .ok ⟨rfl, .inside (by omega) hbytes, Int.sub_self _⟩
  | @ended n asked asked' hx h hn hny =>
    have hnone : (x.cursor x.data.length asked).takeAt position k = .error .damage := by
      unfold Cursor.takeAt
      split
      · rfl
      · generalize (position - (x.cursor x.data.length asked).position).toNat = m
        rcases Nat.eq_zero_or_pos m with rfl | hm
        · rw [takeAll_inside (Nat.le_refl _), except_ok_bind]
          exact takeAll_beyond (Nat.le_refl _) (Nat.lt_add_of_pos_right hk)
        · rw [takeAll_beyond (Nat.le_refl _) (Nat.lt_add_of_pos_right hm), except_error_bind]
    rw [hnone]
    exact .damage _

theorem Segment.read_compared (hxy : x.data <+: y.data) {c c' : Cursor}
    (h : SameCursor x y least c c') {d : Int} (hd : (c'.position : Int) - c.position = d)
    (s : Segment) (position : Int) (hk : 0 < k) :
    Compared x P (fun r r' => r.1 = r'.1 ∧ SameCursor x y least r.2 r'.2 ∧
      (r'.2.position : Int) - r.2.position = d)
      (s.read position k c) ((s.moved d).read position k c') := by
  obtain ⟨start, stop, place⟩ := s
  cases place with
  | none =>
    unfold Segment.read Segment.moved
    dsimp only [Option.map_none]
    split
    · exact .error _
    · exact .ok ⟨rfl, h, hd⟩
  | some place =>
    have hplace : place + d + (position - start) = place + (position - start) + d := by omega
    change Compared x P _ (c.takeAt (place + (position - start)) k)
      (c'.takeAt (place + d + (position - start)) k)
    rw [hplace]
    exact takeAt_compared hxy h hd _ hk

/-- A stretch that is looked for by its place in a file is found where the archive is moved, too. -/
theorem span_moved (p : Segment → Bool) (d : Int) (hp : ∀ s, p (s.moved d) = p s)
    (segments : List Segment) :
    (segments.map (Segment.moved d)).span p =
      ((segments.span p).1.map (Segment.moved d), (segments.span p).2.map (Segment.moved d)) := by
  have hcomp : p ∘ Segment.moved d = p := funext hp
  rw [List.span_eq_takeWhile_dropWhile, List.span_eq_takeWhile_dropWhile, List.takeWhile_map,
    List.dropWhile_map, hcomp]

theorem restore_compared (hxy : x.data <+: y.data) {c c' : Cursor} (h : SameCursor x y least c c')
    {d : Int} (hd : (c'.position : Int) - c.position = d) (size : Int) (bound : Nat)
    (segments : List Segment) (position : Int) :
    Compared x P (fun r r' => r.1 = r'.1 ∧ SameCursor x y least r.2 r'.2 ∧
      (r'.2.position : Int) - r.2.position = d)
      (restore size bound segments position c)
      (restore size bound (segments.map (Segment.moved d)) position c') := by
  induction bound generalizing segments position c c' with
  | zero => exact .ok ⟨rfl, h, hd⟩
  | succ bound ih =>
    rw [restore, restore]
    split
    · exact .ok ⟨rfl, h, hd⟩
    · rename_i hsize
      rw [span_moved _ d fun _ => rfl]
      cases hspan : segments.span fun s => !(s.start ≤ position && position < s.stop) with
      | mk passed found =>
        cases found with
        | nil => exact .ok ⟨rfl, h, hd⟩
        | cons s rest =>
          have hstop : position < s.stop := by
            rw [List.span_eq_takeWhile_dropWhile, Prod.mk.injEq] at hspan
            have hhead := List.head?_dropWhile_not
              (fun s : Segment => !(s.start ≤ position && position < s.stop)) segments
            rw [hspan.2] at hhead
            simp only [List.head?_cons, Bool.not_eq_false', Bool.and_eq_true,
              decide_eq_true_eq] at hhead
            exact hhead.2
          have hlength : 0 < (min size s.stop - position).toNat := by omega
          dsimp only [List.map_cons]
          refine (s.read_compared hxy h hd position hlength).bind ?_
          rintro ⟨bytes, c⟩ ⟨bytes', c'⟩ ⟨hbytes, hc, hd⟩
          obtain rfl : bytes = bytes' := hbytes
          have hmoved : rest.map (Segment.moved d) ++ passed.map (Segment.moved d) =
              (rest ++ passed).map (Segment.moved d) := List.map_append.symm
          dsimp only
          rw [hmoved]
          refine (ih hc hd (rest ++ passed) _).bind ?_
          rintro ⟨more, c⟩ ⟨more', c'⟩ ⟨hmore, hc, hd⟩
          obtain rfl : more = more' := hmore
          exact .ok ⟨rfl, hc, hd⟩

/-- The content of a file, in bytes that are cut off and in all of the bytes. -/
theorem content_compared (hxy : x.data <+: y.data) {c c' : Cursor} (h : SameCursor x y least c c')
    (size : Int) (map : Option Map) :
    Compared x P (fun r r' => r.1 = r'.1 ∧ SameCursor x y least r.2 r'.2 ∧
      (r'.2.position : Int) - r.2.position = c'.position - c.position)
      (content size map c) (content size map c') := by
  have hplace : (c'.position : Int) = c.position + (c'.position - c.position) := by omega
  have hsegments : segments size c'.position (map.getD [(0, size)]) =
      (segments size c.position (map.getD [(0, size)])).map
        (Segment.moved (c'.position - c.position)) := by
    rw [segments, segments, hplace, segmentsFrom_moved]
    congr 2
    omega
  rw [content, content, hsegments, List.length_map]
  exact restore_compared hxy h rfl size _ _ 0

/-! ### Failures -/

section Failures

variable {F : ReadFailure → Prop} {Q : α → Prop} {R : β → Prop} {J : Cursor → Prop}

/-- A result with `Q`, or no result, for a reason which is a failure with `F` if it is one. -/
inductive Told (F : ReadFailure → Prop) (Q : α → Prop) : Except Absence α → Prop
  | ok {a} (h : Q a) : Told F Q (.ok a)
  | endMark : Told F Q (.error .endMark)
  | noHeader : Told F Q (.error .noHeader)
  | failure {f} (h : F f) : Told F Q (.error (.failure f))

namespace Told

variable {r : Except Absence α}

theorem bind {f : α → Except Absence β} (h : Told F Q r) (hf : ∀ a, Q a → Told F R (f a)) :
    Told F R (r >>= f) := by
  cases h with
  | ok h => exact hf _ h
  | endMark => exact .endMark
  | noHeader => exact .noHeader
  | failure h => exact .failure h

theorem mono {F' : ReadFailure → Prop} (h : Told F Q r) (hF : ∀ f, F f → F' f) : Told F' Q r := by
  cases h with
  | ok h => exact .ok h
  | endMark => exact .endMark
  | noHeader => exact .noHeader
  | failure h => exact .failure (hF _ h)

theorem imp {Q' : α → Prop} (h : Told F Q r) (hQ : ∀ a, Q a → Q' a) : Told F Q' r := by
  cases h with
  | ok h => exact .ok (hQ _ h)
  | endMark => exact .endMark
  | noHeader => exact .noHeader
  | failure h => exact .failure h

/-- Behind a header for the next one, a header that is missing is damage. -/
theorem behind (h : Told (· = .damaged) Q r) :
    Told (· = .damaged) Q (r.mapError Absence.behind) := by
  cases h with
  | ok h => exact .ok h
  | endMark => exact .failure rfl
  | noHeader => exact .failure rfl
  | failure h => exact .failure h

theorem of_failure {f : ReadFailure} (h : Told F Q r) (hr : r = .error (.failure f)) : F f := by
  subst hr
  cases h with
  | failure h => exact h

end Told

/-- Taking bytes keeps `J`, or the data is damaged. -/
def Keeps (J : Cursor → Prop) : Prop :=
  ∀ c k, J c → Told (· = .damaged) (fun r => J r.2) (c.take k)

theorem keeps_true : Keeps fun _ => True := by
  intro c k _
  unfold Cursor.take
  dsimp only
  split
  · exact .failure rfl
  · exact .ok trivial

theorem Keeps.takeAll (hJ : Keeps J) {c : Cursor} (hc : J c) (k : Nat) :
    Told (· = .damaged) (fun r => J r.2) (c.takeAll k) := by
  refine (hJ c k hc).bind ?_
  rintro ⟨bytes, c⟩ hc
  dsimp only
  split
  · exact .failure rfl
  · exact .ok hc

theorem Keeps.takeAt (hJ : Keeps J) {c : Cursor} (hc : J c) (position : Int) (k : Nat) :
    Told (· = .damaged) (fun r => J r.2) (c.takeAt position k) := by
  unfold Cursor.takeAt
  split
  · exact .failure rfl
  · exact (hJ.takeAll hc _).bind fun _ hc => hJ.takeAll hc k

theorem Keeps.moveTo (hJ : Keeps J) {c : Cursor} (hc : J c) (position : Int) :
    Told (· = .damaged) J (c.moveTo position) := by
  unfold Cursor.moveTo
  split
  · exact .ok hc
  split
  · exact .endMark
  split
  · exact .failure rfl
  · exact (hJ.takeAll hc _).bind fun _ hc => .ok hc

/-- Reading the next bytes of a stretch fails at a gap that is too long, apart from damage. -/
theorem Keeps.segment (hJ : Keeps J) {c : Cursor} (hc : J c) (s : Segment) (position : Int) :
    Told (fun f => f = .damaged ∨ f = .gapTooLong ∧ s.place = none) (fun r => J r.2)
      (s.read position k c) := by
  unfold Segment.read
  split
  · exact (hJ.takeAt hc _ k).mono fun f => .inl
  · rename_i hplace
    split
    · exact .failure (.inr ⟨rfl, hplace⟩)
    · exact .ok hc

/-- Reading a content fails with damage, or at a gap that is too long. -/
theorem Keeps.restore (hJ : Keeps J) {c : Cursor} (hc : J c) (size : Int) (bound : Nat)
    (segments : List Segment) (position : Int) :
    Told (fun f => f = .damaged ∨ f = .gapTooLong ∧ ∃ s ∈ segments, s.place = none)
      (fun r => J r.2) (restore size bound segments position c) := by
  induction bound generalizing segments position c with
  | zero => exact .ok hc
  | succ bound ih =>
    rw [Tar.restore]
    split
    · exact .ok hc
    · cases hspan : segments.span fun s => !(s.start ≤ position && position < s.stop) with
      | mk passed found =>
        have hsegments : passed ++ found = segments := by
          rw [List.span_eq_takeWhile_dropWhile, Prod.mk.injEq] at hspan
          rw [← hspan.1, ← hspan.2, List.takeWhile_append_dropWhile]
        subst hsegments
        cases found with
        | nil => exact .ok hc
        | cons s rest =>
          dsimp only
          refine ((hJ.segment hc s position).mono ?_).bind ?_
          · rintro f (hf | ⟨hf, hplace⟩)
            · exact .inl hf
            · exact .inr ⟨hf, s, List.mem_append_right _ List.mem_cons_self, hplace⟩
          · rintro ⟨bytes, c⟩ hc
            refine ((ih hc (rest ++ passed) _).mono ?_).bind fun _ hc => .ok hc
            rintro f (hf | ⟨hf, t, ht, hplace⟩)
            · exact .inl hf
            · refine .inr ⟨hf, t, ?_, hplace⟩
              simp only [List.mem_append, List.mem_cons] at ht ⊢
              exact ht.elim (fun h => .inr (.inr h)) .inl

end Failures

end Tar

end ProviderCatalog.Archive
