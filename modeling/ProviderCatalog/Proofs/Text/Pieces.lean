import ProviderCatalog.Text.Basic
import ProviderCatalog.Text.Case
import ProviderCatalog.Text.Search
import Mathlib.Data.List.Lex
import Mathlib.Data.List.Basic
import Mathlib.Data.List.Infix

/-!
# The order of texts and their pieces

Texts are ordered like the words of a dictionary, by the numbers of their code points. This is a
strict total order, so a list that is sorted by texts is in their order, and elements with the same
text keep theirs.

Trimming a text, cutting it and dropping parts of it adds no code point. So what is cut out of a
text without lone surrogates has none either. Lower case may change code points, but makes no
surrogate. Texts that are joined by a separator are split into the pieces of each of them. A text
occurs in another one if it is a part of it; where texts are put together with code points between
them that the text does not have, it occurs in one of them or nowhere.

## Main results

* `Text.lt_iff_lex`: the order is the lexicographic one.
* `Text.pairwise_mergeSort`, `Text.filter_mergeSort`: lists sorted by texts.
* `Text.isUnicode_of_subset`: texts made of the code points of another text.
* `Text.trim_subset`, `Text.subset_of_mem_lines` and the like: what adds no code point.
* `Text.isUnicode_lower`: lower case.
* `Text.splitOn_join`, `Text.notMem_of_mem_splitOn`: pieces between separators.
* `Text.contains_eq_true_iff`: a text that is found is a part.
* `Text.infix_append_iff`: occurrences on the sides of separating code points.
-/

namespace ProviderCatalog

theorem CodePoint.value_injective : Function.Injective CodePoint.value := by
  have hscalar (c : Char) : c.toNat < 0xD800 ∨ 0xDFFF < c.toNat := c.valid.imp_right And.left
  rintro (c | n) (d | m) h
  · exact congrArg scalar (Char.toNat_inj.mp h)
  · have hc := hscalar c
    dsimp only [value] at h
    omega
  · have hd := hscalar d
    dsimp only [value] at h
    omega
  · exact congrArg surrogate (Fin.ext (Nat.add_left_cancel h))

instance : IsStrictTotalOrder CodePoint fun x y => x.value < y.value where
  irrefl _ := Nat.lt_irrefl _
  trans _ _ _ := Nat.lt_trans
  trichotomous _ _ hxy hyx :=
    CodePoint.value_injective (Nat.le_antisymm (Nat.le_of_not_lt hyx) (Nat.le_of_not_lt hxy))

namespace Text

variable {s t u : Text} {α : Type}

theorem lt_iff_lex : lt s t = true ↔ List.Lex (fun x y => x.value < y.value) s t := by
  induction s generalizing t with
  | nil => cases t <;> simp [lt]
  | cons x s ih =>
    cases t with
    | nil => simp [lt]
    | cons y t =>
      rw [lt, Bool.or_eq_true, Bool.and_eq_true, decide_eq_true_iff, beq_iff_eq, ih,
        List.cons_lex_cons_iff]

theorem lt_irrefl (t : Text) : lt t t = false :=
  Bool.eq_false_iff.mpr fun h => irrefl t (lt_iff_lex.mp h)

theorem lt_asymm (h : lt s t = true) : lt t s = false :=
  Bool.eq_false_iff.mpr fun h' => asymm (lt_iff_lex.mp h) (lt_iff_lex.mp h')

/-- What a text is not before it is not before an earlier text either. -/
theorem not_lt_trans (hts : lt t s = false) (hut : lt u t = false) : lt u s = false := by
  refine Bool.eq_false_iff.mpr fun hus => ?_
  rcases IsOrderConnected.conn u t s (lt_iff_lex.mp hus) with h | h
  · exact Bool.eq_false_iff.mp hut (lt_iff_lex.mpr h)
  · exact Bool.eq_false_iff.mp hts (lt_iff_lex.mpr h)

/-! ### Lists sorted by texts -/

section Sorting

variable (key : α → Text) (as : List α)

private theorem mayPrecede_trans (a b c : α) (hab : (!lt (key b) (key a)) = true)
    (hbc : (!lt (key c) (key b)) = true) : (!lt (key c) (key a)) = true := by
  rw [Bool.not_eq_true'] at hab hbc ⊢
  exact not_lt_trans hab hbc

private theorem mayPrecede_total (a b : α) :
    (!lt (key b) (key a) || !lt (key a) (key b)) = true := by
  cases h : lt (key b) (key a) with
  | false => rfl
  | true => simp [lt_asymm h]

theorem pairwise_mergeSort : (as.mergeSort fun a b => !lt (key b) (key a)).Pairwise
    fun a b => lt (key b) (key a) = false :=
  (List.pairwise_mergeSort (mayPrecede_trans key) (mayPrecede_total key) as).imp fun h => by
    simpa using h

/-- Sorting keeps the order of elements with the same text. -/
theorem filter_mergeSort (k : Text) :
    (as.mergeSort fun a b => !lt (key b) (key a)).filter (key · == k) =
      as.filter (key · == k) := by
  have hsame : (as.filter (key · == k)).Pairwise fun a b => (!lt (key b) (key a)) = true := by
    refine List.pairwise_of_forall_mem_list fun a ha b hb => ?_
    have hkeys : key b = key a := by
      rw [beq_iff_eq.mp (List.mem_filter.mp ha).2, beq_iff_eq.mp (List.mem_filter.mp hb).2]
    simp [hkeys, lt_irrefl]
  have hsublist := List.sublist_mergeSort (mayPrecede_trans key) (mayPrecede_total key) hsame
    List.filter_sublist
  have hfilter := hsublist.filter (key · == k)
  simp only [List.filter_filter, Bool.and_self] at hfilter
  refine (hfilter.eq_of_length ?_).symm
  exact ((List.mergeSort_perm as _).symm.filter _).length_eq

end Sorting

end Text

end ProviderCatalog

namespace ProviderCatalog.Text

variable {s t line : Text} {p : CodePoint → Bool}

/-! ### Texts without lone surrogates -/

theorem isUnicode_iff : t.isUnicode = true ↔ ∀ x ∈ t, x.isScalar = true := List.all_eq_true

theorem isUnicode_of_subset (h : s ⊆ t) (ht : t.isUnicode = true) : s.isUnicode = true :=
  isUnicode_iff.mpr fun x hx => isUnicode_iff.mp ht x (h hx)

theorem isUnicode_append :
    isUnicode (s ++ t) = true ↔ s.isUnicode = true ∧ t.isUnicode = true := by
  simp [isUnicode]

theorem isUnicode_join {sep : Text} {ts : List Text} (hsep : sep.isUnicode = true)
    (h : ∀ t ∈ ts, t.isUnicode = true) : (join sep ts).isUnicode = true := by
  induction ts with
  | nil => rfl
  | cons t ts ih =>
    obtain ⟨ht, hts⟩ := List.forall_mem_cons.mp h
    cases ts with
    | nil => exact ht
    | cons => exact isUnicode_append.mpr ⟨isUnicode_append.mpr ⟨ht, hsep⟩, ih hts⟩

theorem isUnicode_ofChars (cs : List Char) : (ofChars cs).isUnicode = true := by
  simp [isUnicode, ofChars, CodePoint.isScalar]

/-- A text has characters if it can be encoded. -/
theorem isSome_toChars? (t : Text) : t.toChars?.isSome = t.isUnicode := by
  induction t with
  | nil => rfl
  | cons x t ih =>
    cases x with
    | scalar c => rw [toChars?, Option.isSome_map, ih]; rfl
    | surrogate => rfl

theorem toChars?_ofChars (cs : List Char) : (ofChars cs).toChars? = some cs := by
  induction cs with
  | nil => rfl
  | cons c cs ih => exact congrArg (Option.map (c :: ·)) ih

/-- The characters of a text make it up. -/
theorem eq_ofChars_of_toChars? {cs : List Char} (h : t.toChars? = some cs) : t = ofChars cs := by
  induction t generalizing cs with
  | nil =>
    cases h
    rfl
  | cons x t ih =>
    cases x with
    | scalar c =>
      obtain ⟨cs, hcs, rfl⟩ := Option.map_eq_some_iff.mp h
      rw [ih hcs]
      rfl
    | surrogate => exact nomatch h

/-- Lower case makes no surrogate. -/
theorem isUnicode_lower (h : t.isUnicode = true) : t.lower.isUnicode = true := by
  suffices hafter : ∀ before : Text, (lowerAfter before t).isUnicode = true from hafter []
  induction t with
  | nil => exact fun _ => rfl
  | cons x t ih =>
    intro before
    obtain ⟨hx, ht⟩ := (isUnicode_append (s := [x])).mp h
    have hrest := ih ht (x :: before)
    rw [lowerAfter.eq_def]
    dsimp only
    split
    · exact nomatch hx
    · exact (isUnicode_append (s := [_])).mpr ⟨rfl, hrest⟩
    · exact isUnicode_append.mpr ⟨isUnicode_ofChars _, hrest⟩

/-! ### Pieces -/

theorem dropRight_subset (p : CodePoint → Bool) (t : Text) : dropRight p t ⊆ t := by
  intro x hx
  exact List.mem_reverse.mp ((List.dropWhile_sublist p).subset (List.mem_reverse.mp hx))

theorem dropEnds_subset (p : CodePoint → Bool) (t : Text) : dropEnds p t ⊆ t :=
  List.Subset.trans (dropRight_subset p _) (List.dropWhile_sublist p).subset

theorem trim_subset (t : Text) : t.trim ⊆ t := dropEnds_subset _ t

theorem dropPrefix_subset (t s : Text) : t.dropPrefix s ⊆ t := by
  rw [dropPrefix, dropPrefix?]
  split
  · exact List.drop_subset _ _
  · exact List.Subset.refl _

theorem erase_subset (t : Text) (x : CodePoint) : t.erase x ⊆ t := (List.filter_sublist).subset

theorem firstWord_subset (t : Text) : t.firstWord ⊆ t :=
  List.Subset.trans (List.takeWhile_sublist _).subset (List.dropWhile_sublist _).subset

/-- The current line is kept backwards, which does not matter for its code points. -/
private theorem subset_of_mem_linesFrom {current : Text} (h : line ∈ linesFrom current t) :
    ∀ x ∈ line, x ∈ current ∨ x ∈ t := by
  fun_induction linesFrom current t with
  | case1 current hempty => exact nomatch h
  | case2 current hempty =>
    intro x hx
    rw [List.mem_singleton.mp h] at hx
    exact Or.inl (List.mem_reverse.mp hx)
  | case3 current t ih =>
    intro x hx
    rcases List.mem_cons.mp h with rfl | h
    · exact Or.inl (List.mem_reverse.mp hx)
    · have hmem := ih h x hx
      simp at hmem ⊢
      tauto
  | case4 current y t hbreak hpair ih =>
    intro x hx
    rcases List.mem_cons.mp h with rfl | h
    · exact Or.inl (List.mem_reverse.mp hx)
    · have hmem := ih h x hx
      simp at hmem ⊢
      tauto
  | case5 current y t hbreak hpair ih =>
    intro x hx
    have hmem := ih h x hx
    simp at hmem ⊢
    tauto

theorem subset_of_mem_lines (h : line ∈ t.lines) : line ⊆ t :=
  fun x hx => (subset_of_mem_linesFrom h x hx).resolve_left List.not_mem_nil

/-! ### Pieces between separators -/

section Splitting

variable {sep : CodePoint} {ts : List Text}

theorem splitOn_ne_nil (sep : CodePoint) (t : Text) : splitOn sep t ≠ [] := by
  fun_cases splitOn sep t <;> simp [*]

/-- A separator ends the pieces of what stands before it. -/
theorem splitOn_append (sep : CodePoint) (s t : Text) :
    splitOn sep (s ++ sep :: t) = splitOn sep s ++ splitOn sep t := by
  induction s with
  | nil => simp [splitOn]
  | cons x s ih =>
    rw [List.cons_append, splitOn, splitOn, ih]
    cases x == sep with
    | true => rfl
    | false =>
      cases hs : splitOn sep s with
      | nil => exact absurd hs (splitOn_ne_nil sep s)
      | cons piece rest => rfl

/-- Texts that are joined are split into the pieces of each of them. -/
theorem splitOn_join (sep : CodePoint) (hts : ts ≠ []) :
    splitOn sep (join [sep] ts) = ts.flatMap (splitOn sep) := by
  induction ts with
  | nil => exact absurd rfl hts
  | cons t ts ih =>
    cases ts with
    | nil => rw [join, List.flatMap_singleton]
    | cons u us =>
      rw [join, List.append_assoc, List.singleton_append, splitOn_append, ih (List.cons_ne_nil u us),
        ← List.flatMap_cons]
      exact nofun

theorem splitOn_of_notMem (h : sep ∉ t) : splitOn sep t = [t] := by
  induction t with
  | nil => rfl
  | cons x t ih =>
    obtain ⟨hx, ht⟩ := not_or.mp (List.mem_cons.not.mp h)
    rw [splitOn, beq_eq_false_iff_ne.mpr (Ne.symm hx), ih ht]
    rfl

/-- No piece has a separator in it. -/
theorem notMem_of_mem_splitOn (h : s ∈ splitOn sep t) : sep ∉ s := by
  induction t generalizing s with
  | nil =>
    rw [List.mem_singleton.mp h]
    exact List.not_mem_nil
  | cons x t ih =>
    rw [splitOn] at h
    cases hx : x == sep with
    | true =>
      rw [hx, if_pos rfl] at h
      rcases List.mem_cons.mp h with rfl | h
      · exact List.not_mem_nil
      · exact ih h
    | false =>
      have hne : sep ≠ x := (beq_eq_false_iff_ne.mp hx).symm
      cases ht : splitOn sep t with
      | nil => exact absurd ht (splitOn_ne_nil sep t)
      | cons piece rest =>
        rw [ht] at h ih
        simp only [hx, Bool.false_eq_true, if_false, List.mem_cons] at h
        rcases h with rfl | h
        · exact List.mem_cons.not.mpr (not_or.mpr ⟨hne, ih List.mem_cons_self⟩)
        · exact ih (List.mem_cons_of_mem _ h)

end Splitting

end ProviderCatalog.Text

/-! ### Occurrences -/

namespace ProviderCatalog.Text

variable {m t a b mid : Text} {x : CodePoint}

theorem contains_eq_true_iff : t.contains m = true ↔ m <:+: t := by
  rw [contains]
  induction t with
  | nil =>
    rw [indexOf?, List.infix_nil]
    cases m with
    | nil => simp
    | cons x m => simp
  | cons x t ih =>
    rw [indexOf?, List.infix_cons_iff, ← ih, ← List.isPrefixOf_iff_prefix]
    cases m.isPrefixOf (x :: t) <;> simp

private theorem prefix_append_cons (hx : x ∉ m) (h : m <+: a ++ x :: b) : m <+: a := by
  induction a generalizing m with
  | nil =>
    rcases List.prefix_cons_iff.mp h with rfl | ⟨m, rfl, -⟩
    · exact List.nil_prefix
    · exact absurd List.mem_cons_self hx
  | cons y a ih =>
    rcases List.prefix_cons_iff.mp h with rfl | ⟨m, rfl, hm⟩
    · exact List.nil_prefix
    · exact List.cons_prefix_cons.mpr ⟨rfl, ih (fun h => hx (List.mem_cons_of_mem _ h)) hm⟩

/-- What does not have a code point occurs before it or behind it. -/
theorem infix_append_cons_iff (hm : m ≠ []) (hx : x ∉ m) :
    m <:+: a ++ x :: b ↔ m <:+: a ∨ m <:+: b := by
  constructor
  · intro h
    induction a with
    | nil =>
      rcases List.infix_cons_iff.mp h with h | h
      · exact absurd (List.prefix_nil.mp (prefix_append_cons (a := []) hx h)) hm
      · exact .inr h
    | cons y a ih =>
      rcases List.infix_cons_iff.mp h with h | h
      · exact .inl (prefix_append_cons (a := y :: a) hx h).isInfix
      · exact (ih h).imp_left List.infix_cons
  · rintro (h | h)
    · exact h.trans (List.prefix_append a _).isInfix
    · exact h.trans ((List.suffix_cons x b).trans (List.suffix_append a _)).isInfix

/-- What has none of the code points between two texts occurs in one of the texts. -/
theorem infix_append_iff (hm : m ≠ []) (hmid : mid ≠ []) (h : ∀ x ∈ mid, x ∉ m) :
    m <:+: a ++ (mid ++ b) ↔ m <:+: a ∨ m <:+: b := by
  induction mid generalizing a with
  | nil => exact absurd rfl hmid
  | cons x mid ih =>
    obtain ⟨hx, hrest⟩ := List.forall_mem_cons.mp h
    rw [List.cons_append, infix_append_cons_iff hm hx]
    rcases eq_or_ne mid [] with rfl | hne
    · rfl
    · rw [← List.nil_append (mid ++ b), ih hne hrest, List.infix_nil, or_iff_right hm]

end ProviderCatalog.Text
