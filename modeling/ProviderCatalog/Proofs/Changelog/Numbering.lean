import ProviderCatalog.Changelog.Entry
import ProviderCatalog.Proofs.Calendar.Written
import ProviderCatalog.Proofs.Computation
import ProviderCatalog.Proofs.Text.Pieces
import Mathlib.Data.List.Basic
import Mathlib.Data.List.Nodup

/-!
# The numbers and the keys of entries

The bullets of a release are numbered from zero in the order of the document, and each makes the
entry of its number. A key ends in the number, behind its last hyphen, so the keys of a release
differ however alike its sections are named. Keys are made of digits, small letters and hyphens.

## Main definitions

* `IsKeyPoint`: the code points of keys.
* `numberedEntry`, `numberedEntries`: the entries that bullets make under their numbers.

## Main results

* `isKeyPoint_of_mem_entryKey`, `entryKey_injective`: what keys are made of, and the number that can
  be read off a key.
* `entries_eq_ok_iff`: the entries of a release.
* `positions_numberedEntries`, `numberedEntries_keys`: their numbers and keys.
-/

namespace ProviderCatalog.Changelog

variable {version name : Text} {bs : List (Text × Text)} {r : Release} {position : Nat}

/-! ### Keys -/

/-- Whether a code point is a digit, a small letter or a hyphen. -/
def IsKeyPoint (p : CodePoint) : Prop :=
  ∃ c : Char, p = .scalar c ∧ (c.isDigit = true ∨ c.isLower = true ∨ c = '-')

theorem IsKeyPoint.isScalar {p : CodePoint} (h : IsKeyPoint p) : p.isScalar = true := by
  obtain ⟨c, rfl, -⟩ := h
  rfl

/-- Slugs are made of digits, small letters and hyphens, whatever they are made from. -/
theorem isKeyPoint_of_mem_slug {p : CodePoint} (h : p ∈ slug name) : IsKeyPoint p := by
  have hitem : ∀ p ∈ Text.ofString "item", IsKeyPoint p := by
    change ∀ p ∈ [CodePoint.scalar 'i', .scalar 't', .scalar 'e', .scalar 'm'], IsKeyPoint p
    simp only [List.forall_mem_cons, List.not_mem_nil, false_imp_iff, implies_true, and_true]
    exact ⟨⟨_, rfl, .inr (.inl rfl)⟩, ⟨_, rfl, .inr (.inl rfl)⟩, ⟨_, rfl, .inr (.inl rfl)⟩,
      ⟨_, rfl, .inr (.inl rfl)⟩⟩
  unfold slug at h
  dsimp only at h
  split at h
  · exact hitem p h
  · obtain ⟨q, -, rfl⟩ := List.mem_map.mp (Text.dropEnds_subset _ _ h)
    split
    · rename_i hq
      cases q with
      | scalar c => exact ⟨c, rfl, (Bool.or_eq_true_iff.mp hq).imp_right .inl⟩
      | surrogate n => exact nomatch hq
    · exact ⟨'-', rfl, .inr (.inr rfl)⟩

theorem isKeyPoint_of_mem_entryKey {p : CodePoint} (h : p ∈ entryKey name version position) :
    IsKeyPoint p := by
  have hhyphen : ∀ p ∈ Text.ofString "-", IsKeyPoint p := by
    intro p hp
    exact ⟨'-', List.mem_singleton.mp hp, .inr (.inr rfl)⟩
  simp only [entryKey, List.mem_append, Date.padded_eq, Text.ofChars, List.mem_map] at h
  obtain (((h | h) | h) | h) | ⟨c, hc, rfl⟩ := h
  · exact isKeyPoint_of_mem_slug h
  · exact hhyphen p h
  · exact isKeyPoint_of_mem_slug h
  · exact hhyphen p h
  · exact ⟨c, rfl, .inl (Date.isDigit_of_mem_digits hc)⟩

/-- The number at the end of a key can be read off the key. -/
private theorem number_of_key {s s' : Text} {m n : Nat}
    (h : s ++ "-" ++ Date.padded 3 m = s' ++ "-" ++ Date.padded 3 n) : m = n := by
  have hdigits (n : Nat) : ∀ x ∈ (Text.ofChars (Date.digits 3 n)).reverse,
      (x != CodePoint.scalar '-') = true := by
    intro x hx
    obtain ⟨c, hc, rfl⟩ := List.mem_map.mp (List.mem_reverse.mp hx)
    simp only [bne_iff_ne, ne_eq, CodePoint.scalar.injEq]
    rintro rfl
    exact absurd (Date.isDigit_of_mem_digits hc) (by decide)
  -- the digits are what stands behind the last hyphen
  have hbehind (s : Text) (n : Nat) : (s ++ "-" ++ Date.padded 3 n).reverse.takeWhile
      (· != .scalar '-') = (Text.ofChars (Date.digits 3 n)).reverse := by
    rw [Date.padded_eq, List.reverse_append, List.takeWhile_append_of_pos (hdigits n)]
    simp [Text.ofString, Text.ofChars]
  have hchars : Date.digits 3 m = Date.digits 3 n := by
    have hm := hbehind s m
    rw [h, hbehind s' n] at hm
    have hmap := List.reverse_injective hm
    exact (List.map_injective_iff.mpr (fun _ _ => CodePoint.scalar.inj) hmap).symm
  rw [← Date.ofDigitChars_digits 3 m, hchars, Date.ofDigitChars_digits]

theorem entryKey_injective {name name' version : Text} {m n : Nat}
    (h : entryKey name version m = entryKey name' version n) : m = n :=
  number_of_key h

/-! ### Numbers -/

/-- The entry that a bullet of a release makes under its number. -/
def numberedEntry (stem version : Text) (b : (Text × Text) × Nat) : Entry :=
  let identifier := identifier? stem b.1.2.lower
  ⟨b.1.1, entryKey b.1.1 version b.2, b.1.2, none, identifier, identifier,
    changeKind b.1.1 b.1.2, b.2⟩

/-- The entries that the bullets of a release make under their numbers. -/
def numberedEntries (resourcePrefix : Text) (r : Release) : List Entry :=
  (bullets r).zipIdx.map (numberedEntry (resourcePrefix.lower ++ "_") r.version)

private theorem entriesFrom_eq_ok_iff {stem version : Text} {es : List Entry} :
    entriesFrom stem version position bs = .ok es ↔
      (∀ b ∈ bs, b.2.isUnicode = true) ∧
        (bs.zipIdx position).map (numberedEntry stem version) = es := by
  induction bs generalizing position es with
  | nil => simp [entriesFrom]
  | cons b bs ih =>
    cases htitle : b.2.isUnicode with
    | false =>
      refine ⟨fun h => ?_, fun h => nomatch htitle.symm.trans (List.forall_mem_cons.mp h.1).1⟩
      obtain ⟨e, he, -⟩ := except_bind_eq_ok.mp h
      simp [entryOf, htitle] at he
    | true =>
      have hentry : entryOf stem version b.1 b.2 position =
          .ok (numberedEntry stem version (b, position)) := by
        simp [entryOf, htitle, numberedEntry]
      rw [entriesFrom, hentry, List.forall_mem_cons, List.zipIdx_cons, List.map_cons]
      constructor
      · intro h
        obtain ⟨-, ⟨⟩, h⟩ := except_bind_eq_ok.mp h
        obtain ⟨rest, hrest, h⟩ := except_bind_eq_ok.mp h
        obtain ⟨htitles, rfl⟩ := ih.mp hrest
        cases h
        exact ⟨⟨htitle, htitles⟩, rfl⟩
      · rintro ⟨⟨-, htitles⟩, rfl⟩
        exact except_bind_eq_ok.mpr ⟨_, rfl, except_bind_eq_ok.mpr ⟨_, ih.mpr ⟨htitles, rfl⟩, rfl⟩⟩

/-- Bullets make the entries of their numbers, in their order, unless one has a lone surrogate. -/
theorem entries_eq_ok_iff {resourcePrefix : Text} {es : List Entry} :
    entries resourcePrefix r = .ok es ↔
      (∀ b ∈ bullets r, b.2.isUnicode = true) ∧ numberedEntries resourcePrefix r = es :=
  entriesFrom_eq_ok_iff

theorem bullets_numberedEntries (resourcePrefix : Text) (r : Release) :
    (numberedEntries resourcePrefix r).map (fun e => (e.sectionName, e.title)) = bullets r := by
  rw [numberedEntries, List.map_map]
  exact List.zipIdx_map_fst 0 (bullets r)

@[simp] theorem length_numberedEntries (resourcePrefix : Text) (r : Release) :
    (numberedEntries resourcePrefix r).length = (bullets r).length := by
  rw [numberedEntries, List.length_map, List.length_zipIdx]

/-- Entries are numbered from zero, in their order. -/
theorem positions_numberedEntries (resourcePrefix : Text) (r : Release) :
    (numberedEntries resourcePrefix r).map (·.position) =
      (List.range (bullets r).length).map Int.ofNat := by
  rw [numberedEntries, List.map_map, List.range_eq_range', ← List.zipIdx_map_snd, List.map_map]
  rfl

/-- The entries of a release are numbered in their order. -/
theorem entries_sorted {resourcePrefix : Text} {es : List Entry}
    (h : entries resourcePrefix r = .ok es) : es.Pairwise (·.position ≤ ·.position) := by
  obtain ⟨-, rfl⟩ := entries_eq_ok_iff.mp h
  rw [← List.pairwise_map, positions_numberedEntries, List.pairwise_map]
  exact List.pairwise_le_range.imp Int.ofNat_le.mpr

/-- The key of an entry is made of its section, the version of the release and its number. -/
theorem key_of_mem_numberedEntries {resourcePrefix : Text} {e : Entry}
    (h : e ∈ numberedEntries resourcePrefix r) :
    ∃ n : Nat, e.position = n ∧ n < (bullets r).length ∧
      e.key = entryKey e.sectionName r.version n := by
  obtain ⟨⟨b, n⟩, hb, rfl⟩ := List.mem_map.mp h
  have hlt := List.snd_lt_of_mem_zipIdx hb
  exact ⟨n, rfl, by simpa using hlt, rfl⟩

/-- No two entries have the same key. -/
theorem numberedEntries_keys (resourcePrefix : Text) (r : Release) :
    (numberedEntries resourcePrefix r).Pairwise (·.key ≠ ·.key) := by
  have hnumbers : (bullets r).zipIdx.Pairwise (·.2 ≠ ·.2) := by
    rw [← List.pairwise_map, List.zipIdx_map_snd]
    exact List.nodup_range'
  refine List.pairwise_map.mpr (hnumbers.imp fun {b c} hne hkey => hne ?_)
  exact entryKey_injective hkey

end ProviderCatalog.Changelog
