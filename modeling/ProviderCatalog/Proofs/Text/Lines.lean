import ProviderCatalog.Text.Blank
import ProviderCatalog.Text.Search
import Mathlib.Data.List.DropRight

/-!
# Trimmed texts and texts made of lines

A text is its own trimmed form exactly if it neither begins nor ends with a blank. Lines without
line breaks that are written one below the other can be read back, whether or not the last of them
is ended too.

## Main definitions

* `Text.IsPhrase`: non-empty, trimmed pieces of one line.

## Main results

* `Text.dropEnds_eq_self_iff`, `Text.trim_eq_self_iff`: texts that trimming leaves alone.
* `Text.exists_dropEnds`, `Text.dropEnds_append`: what trimming takes away.
* `Text.dropEnds_infix_dropEnds`: trimming a text and one that occurs in it.
* `Text.trim_between`: texts with trimmed ends.
* `Text.lines_join`, `Text.lines_join_ended`: lines written one below the other.
-/

namespace ProviderCatalog.Text

variable {p : CodePoint → Bool} {s t : Text} {x : CodePoint}

/-! ### Trimming -/

theorem dropRight_eq_self_iff : dropRight p t = t ↔ ∀ x ∈ t.getLast?, p x = false := by
  rw [dropRight, ← List.rdropWhile, List.rdropWhile_eq_self_iff]
  constructor
  · intro h x hx
    obtain ⟨hne, rfl⟩ := List.mem_getLast?_eq_getLast hx
    exact Bool.eq_false_iff.mpr (h hne)
  · intro h hne
    exact Bool.eq_false_iff.mp (h _ (List.getLast?_eq_getLast_of_ne_nil hne))

theorem dropLeft_eq_self_iff : dropLeft p t = t ↔ ∀ x ∈ t.head?, p x = false := by
  rw [dropLeft, List.dropWhile_eq_self_iff]
  cases t with
  | nil => simp
  | cons x t => simp

theorem dropEnds_eq_self_iff : dropEnds p t = t ↔
    (∀ x ∈ t.head?, p x = false) ∧ ∀ x ∈ t.getLast?, p x = false := by
  constructor
  · intro h
    have hleft : dropLeft p t = t := by
      refine (List.dropWhile_sublist p).eq_of_length_le ?_
      have hshort : (dropEnds p t).length ≤ (dropLeft p t).length := by
        simpa [dropEnds, dropRight] using
          (List.dropWhile_sublist (l := (dropLeft p t).reverse) p).length_le
      rwa [h] at hshort
    rw [dropEnds, hleft] at h
    exact ⟨dropLeft_eq_self_iff.mp hleft, dropRight_eq_self_iff.mp h⟩
  · intro ⟨hhead, hlast⟩
    rw [dropEnds, dropLeft_eq_self_iff.mpr hhead, dropRight_eq_self_iff.mpr hlast]

/-- A text is what trimming leaves between code points of the class. -/
theorem exists_dropEnds (p : CodePoint → Bool) (t : Text) :
    ∃ before after, t = before ++ (dropEnds p t ++ after) ∧
      (∀ x ∈ before, p x = true) ∧ ∀ x ∈ after, p x = true := by
  refine ⟨t.takeWhile p, ((dropLeft p t).reverse.takeWhile p).reverse, ?_,
    fun x hx => List.mem_takeWhile_imp hx,
    fun x hx => List.mem_takeWhile_imp (List.mem_reverse.mp hx)⟩
  rw [dropEnds, dropRight, ← List.reverse_append, List.takeWhile_append_dropWhile,
    List.reverse_reverse, dropLeft, List.takeWhile_append_dropWhile]

/-- Trimming takes no code point away that is not of the class. -/
theorem mem_dropEnds (h : x ∈ t) (hx : p x = false) : x ∈ dropEnds p t := by
  obtain ⟨before, after, ht, hbefore, hafter⟩ := exists_dropEnds p t
  have hnot {s : Text} (hs : ∀ y ∈ s, p y = true) : x ∉ s := by
    intro hmem
    rw [hs x hmem] at hx
    cases hx
  rw [ht] at h
  have hright := (List.mem_append.mp h).resolve_left (hnot hbefore)
  exact (List.mem_append.mp hright).resolve_right (hnot hafter)

theorem trim_infix (t : Text) : t.trim <:+: t := by
  obtain ⟨before, after, ht, -, -⟩ := exists_dropEnds CodePoint.isBlank t
  exact ⟨before, after, by rw [List.append_assoc]; exact ht.symm⟩

theorem dropEnds_dropEnds (p : CodePoint → Bool) (t : Text) :
    dropEnds p (dropEnds p t) = dropEnds p t := by
  have hleft : ∀ x ∈ (dropLeft p t).head?, p x = false :=
    dropLeft_eq_self_iff.mp (List.dropWhile_idempotent p t)
  obtain ⟨cut, hcut⟩ : dropEnds p t <+: dropLeft p t := List.rdropWhile_prefix p _
  rw [dropEnds_eq_self_iff]
  refine ⟨fun x hx => hleft x ?_, dropRight_eq_self_iff.mp (List.rdropWhile_idempotent p _)⟩
  rw [← hcut, List.head?_append, Option.mem_def.mp hx]
  rfl

/-- Trimming takes away code points of the class around a trimmed text. -/
theorem dropEnds_append {before after : Text} (hbefore : ∀ x ∈ before, p x = true)
    (ht : dropEnds p t = t) (hne : t ≠ []) (hafter : ∀ x ∈ after, p x = true) :
    dropEnds p (before ++ (t ++ after)) = t := by
  obtain ⟨hhead, hlast⟩ := dropEnds_eq_self_iff.mp ht
  have hleft : dropLeft p (before ++ (t ++ after)) = t ++ after := by
    rw [dropLeft, List.dropWhile_append_of_pos hbefore]
    refine dropLeft_eq_self_iff.mpr ?_
    rwa [List.head?_append_of_ne_nil _ hne]
  have hright : dropRight p (t ++ after) = dropRight p t := by
    rw [dropRight, dropRight, List.reverse_append,
      List.dropWhile_append_of_pos fun x hx => hafter x (List.mem_reverse.mp hx)]
  rw [dropEnds, hleft, hright, dropRight_eq_self_iff.mpr hlast]

theorem dropLeft_append (ht : dropLeft p t = t) : dropLeft p (s ++ t) = dropLeft p s ++ t := by
  rw [dropLeft] at ht
  rw [dropLeft, List.dropWhile_append, dropLeft]
  split
  · rename_i hs
    rw [ht, List.isEmpty_iff.mp hs, List.nil_append]
  · rfl

theorem dropRight_append (hs : dropRight p s = s) :
    dropRight p (s ++ t) = s ++ dropRight p t := by
  have hleft : dropLeft p s.reverse = s.reverse := List.reverse_eq_iff.mp hs
  have happend := dropLeft_append (s := t.reverse) hleft
  rw [dropLeft, dropLeft] at happend
  rw [dropRight, List.reverse_append, happend, List.reverse_append, List.reverse_reverse, dropRight]

/-- Where a text occurs in another one, so does what trimming leaves of it in what trimming leaves
of the other. -/
theorem dropEnds_infix_dropEnds (h : s <:+: t) : dropEnds p s <:+: dropEnds p t := by
  obtain ⟨before, after, rfl⟩ := h
  obtain ⟨left, right, hs, -, -⟩ := exists_dropEnds p s
  obtain ⟨hhead, hlast⟩ := dropEnds_eq_self_iff.mp (dropEnds_dropEnds p s)
  generalize dropEnds p s = core at hs hhead hlast ⊢
  rcases eq_or_ne core [] with rfl | hne
  · exact List.nil_infix
  have hleft : dropLeft p (core ++ (right ++ after)) = core ++ (right ++ after) := by
    refine dropLeft_eq_self_iff.mpr ?_
    rwa [List.head?_append_of_ne_nil _ hne]
  have hright : dropRight p (dropLeft p (before ++ left) ++ core) =
      dropLeft p (before ++ left) ++ core := by
    refine dropRight_eq_self_iff.mpr ?_
    rwa [List.getLast?_append_of_ne_nil _ hne]
  have hwhole : before ++ s ++ after = (before ++ left) ++ (core ++ (right ++ after)) := by
    simp [hs]
  rw [hwhole, dropEnds, dropLeft_append hleft, ← List.append_assoc, dropRight_append hright]
  exact List.infix_append _ _ _

/-- Trimming leaves a text alone that neither begins nor ends with a blank. -/
theorem trim_eq_self_iff : t.trim = t ↔
    (∀ x ∈ t.head?, x.isBlank = false) ∧ ∀ x ∈ t.getLast?, x.isBlank = false :=
  dropEnds_eq_self_iff

/-- Trimming leaves a text alone that begins and ends as trimmed texts do. -/
theorem trim_between (hs : s.trim = s) (hs' : s ≠ []) (mid : Text) (ht : t.trim = t)
    (ht' : t ≠ []) : trim (s ++ (mid ++ t)) = s ++ (mid ++ t) := by
  rw [trim_eq_self_iff, List.head?_append_of_ne_nil _ hs',
    List.getLast?_append_of_ne_nil _ (List.append_ne_nil_of_right_ne_nil _ ht'),
    List.getLast?_append_of_ne_nil _ ht']
  exact ⟨(trim_eq_self_iff.mp hs).1, (trim_eq_self_iff.mp ht).2⟩

theorem trim_eq_self_of_forall (h : ∀ x ∈ t, x.isBlank = false) : t.trim = t :=
  trim_eq_self_iff.mpr
    ⟨fun x hx => h x (List.mem_of_mem_head? hx), fun x hx => h x (List.mem_of_getLast? hx)⟩

/-- A blank in front of a trimmed text is all that trimming takes away. -/
theorem trim_cons_of_blank (hx : x.isBlank = true) (ht : t.trim = t) : trim (x :: t) = t := by
  rw [trim, dropEnds, dropLeft, List.dropWhile_cons_of_pos hx]
  exact ht

/-- What begins with code points of a class begins with one of the class. -/
theorem forall_mem_head?_append {P : CodePoint → Prop} (hne : s ≠ []) (hs : ∀ x ∈ s, P x)
    (t : Text) : ∀ x ∈ (s ++ t).head?, P x := by
  intro x hx
  rw [List.head?_append_of_ne_nil _ hne] at hx
  exact hs x (List.mem_of_mem_head? hx)

/-! ### Pieces of one line -/

/-- A text is a phrase if it is not empty, is trimmed and stays within one line. -/
structure IsPhrase (t : Text) : Prop where
  nonempty : t ≠ []
  trimmed : t.trim = t
  unbroken : ∀ x ∈ t, x.isLineBreak = false

/-- What begins and ends as a phrase does and stays within one line is a phrase. -/
theorem IsPhrase.between (hs : IsPhrase s) (mid : Text) (hmid : ∀ x ∈ mid, x.isLineBreak = false)
    (ht : IsPhrase t) : IsPhrase (s ++ (mid ++ t)) where
  nonempty := List.append_ne_nil_of_left_ne_nil hs.nonempty _
  trimmed := trim_between hs.trimmed hs.nonempty mid ht.trimmed ht.nonempty
  unbroken := List.forall_mem_append.mpr
    ⟨hs.unbroken, List.forall_mem_append.mpr ⟨hmid, ht.unbroken⟩⟩

/-! ### Lines -/

/-- A line goes on up to the next line feed. -/
private theorem linesFrom_append_feed {line : Text} (hline : ∀ x ∈ line, x.isLineBreak = false)
    (before rest : Text) :
    linesFrom before (line ++ .scalar '\n' :: rest) =
      (before.reverse ++ line) :: linesFrom [] rest := by
  induction line generalizing before with
  | nil =>
    rw [List.nil_append, List.append_nil, linesFrom]
    · rfl
    · exact fun _ h => nomatch h
  | cons x line ih =>
    obtain ⟨hx, hrest⟩ := List.forall_mem_cons.mp hline
    rw [List.cons_append, linesFrom, hx, if_neg Bool.false_ne_true, ih hrest]
    · simp
    · rintro _ rfl
      exact absurd hx (by decide)

/-- A last line need not be ended. -/
private theorem linesFrom_last {line : Text} (hline : ∀ x ∈ line, x.isLineBreak = false)
    (before : Text) (hne : before.reverse ++ line ≠ []) :
    linesFrom before line = [before.reverse ++ line] := by
  induction line generalizing before with
  | nil =>
    have hbefore : before.isEmpty = false := by simpa using hne
    rw [linesFrom, hbefore, List.append_nil]
    rfl
  | cons x line ih =>
    obtain ⟨hx, hrest⟩ := List.forall_mem_cons.mp hline
    rw [linesFrom, hx, if_neg Bool.false_ne_true, ih hrest]
    · simp
    · simp
    · rintro _ rfl
      exact absurd hx (by decide)

/-- Lines written one below the other can be read back, if none of them is empty. -/
theorem lines_join {ls : List Text} (hls : ∀ l ∈ ls, l ≠ [] ∧ ∀ x ∈ l, x.isLineBreak = false) :
    lines (join "\n" ls) = ls := by
  fun_induction join "\n" ls with
  | case1 => rfl
  | case2 l =>
    obtain ⟨hne, hunbroken⟩ := hls l List.mem_cons_self
    exact linesFrom_last hunbroken [] hne
  | case3 l ls hmore ih =>
    obtain ⟨⟨-, hunbroken⟩, hrest⟩ := List.forall_mem_cons.mp hls
    rw [lines, List.append_assoc]
    exact (linesFrom_append_feed hunbroken [] _).trans (congrArg (l :: ·) (ih hrest))

/-- The same if the last line is ended as well. -/
theorem lines_join_ended {ls : List Text} (hls : ∀ l ∈ ls, ∀ x ∈ l, x.isLineBreak = false)
    (hne : ls ≠ []) : lines (join "\n" ls ++ "\n") = ls := by
  fun_induction join "\n" ls with
  | case1 => exact absurd rfl hne
  | case2 l => exact linesFrom_append_feed (hls l List.mem_cons_self) [] []
  | case3 l ls hmore ih =>
    obtain ⟨hunbroken, hrest⟩ := List.forall_mem_cons.mp hls
    rw [lines, List.append_assoc, List.append_assoc]
    exact (linesFrom_append_feed hunbroken [] _).trans (congrArg (l :: ·) (ih hrest hmore))

end ProviderCatalog.Text
