import ProviderCatalog.Search.Question
import ProviderCatalog.Search.Ranking
import Mathlib.Data.List.Infix
import ProviderCatalog.Proofs.Store.Calls
import ProviderCatalog.Proofs.Text.Pieces

/-!
# Files that are found

A text in quotes is read back as it was, whatever characters are in it, so a question in quotes has
no operators: it asks for the words of the text. The hits of a phrase are the documents with a
column in which the words of the phrase stand next to each other; ranking changes only their order.

Files are found through the index, which mirrors the table of files after any calls. So a search
finds the files that are stored at that time and mention the words of the query next to each other,
and no others: none that is gone, and none for a text that was replaced.

## Main definitions

* `Mentions`: a phrase stands in one of the texts of a file.

## Main results

* `Search.phrase?_quoted`: the words that a text in quotes asks for.
* `Search.isHit_iff`, `Search.ranked_perm`: which documents are hits, and their order.
* `Tables.Valid.ranked_files`: the files behind the hits of an index.
* `search_after_calls`: the files that a search finds after any calls.
* `search_refuses_unfitting`: a limit and a query that fit into no column.
-/

namespace ProviderCatalog.Search

variable {α : Type} {t : Text} {phrase : List Word}

/-! ### Questions in quotes -/

/-- The quotes in a text are undoubled, up to the quote that closes it. -/
private theorem unquoteFrom?_doubled (h : terminator ∉ t) :
    unquoteFrom? (t.flatMap (fun p => if p == quote then [quote, quote] else [p]) ++ [quote]) =
      some (t, []) := by
  induction t with
  | nil => rfl
  | cons p t ih =>
    obtain ⟨hp, ht⟩ := not_or.mp (List.mem_cons.not.mp h)
    specialize ih ht
    rw [List.flatMap_cons]
    generalize t.flatMap (fun p => if p == quote then [quote, quote] else [p]) = doubled at ih ⊢
    by_cases hquote : p = quote
    · rw [hquote, BEq.rfl, if_pos rfl, List.append_assoc]
      simp [unquoteFrom?, ih, show (quote == terminator) = false from rfl]
    · -- what follows the character is not empty, since the text is closed
      have hterminator : (p == terminator) = false := beq_eq_false_iff_ne.mpr (Ne.symm hp)
      have hne : (p == quote) = false := beq_eq_false_iff_ne.mpr hquote
      rw [hne, if_neg Bool.false_ne_true, List.append_assoc, List.singleton_append]
      obtain ⟨q, rest, hrest⟩ := List.exists_cons_of_ne_nil
        (List.append_ne_nil_of_right_ne_nil doubled (List.cons_ne_nil quote []))
      rw [hrest] at ih ⊢
      simp [unquoteFrom?, ih, hterminator, hne]

/-- A text in quotes asks for its words. -/
theorem phrase?_quoted (h : terminator ∉ t) : phrase? (quoted t) = some (words t) := by
  rw [quoted, List.cons_append, phrase?, BEq.rfl, if_pos rfl, unquoteFrom?_doubled h]

/-! ### Hits -/

/-- A phrase occurs where it stands next to each other. -/
theorem occurrences_eq_zero_iff (hphrase : phrase ≠ []) (ws : List Word) :
    occurrences phrase ws = 0 ↔ ¬phrase <:+: ws := by
  induction ws with
  | nil => simp [occurrences, hphrase]
  | cons w ws ih =>
    rw [occurrences, Nat.add_eq_zero_iff, ih, List.infix_cons_iff, not_or]
    simp

/-- A document is a hit if the phrase stands in one of its columns. -/
theorem isHit_iff (hphrase : phrase ≠ []) (d : Document α) :
    d.isHit phrase = true ↔ ∃ c ∈ d.columns, phrase <:+: c := by
  obtain ⟨value, columns⟩ := d
  rw [Document.isHit, decide_eq_true_iff, Document.frequency, ne_eq, ← not_iff_not, not_not]
  push Not
  dsimp only
  induction columns with
  | nil => simp
  | cons c columns ih =>
    rw [List.foldr_cons, Nat.add_eq_zero_iff, ih, occurrences_eq_zero_iff hphrase,
      List.forall_mem_cons]

/-- Ranking puts the hits in some order. -/
theorem ranked_perm (phrase : List Word) (documents : List (Document α)) :
    (ranked phrase documents).Perm ((documents.filter (·.isHit phrase)).map (·.value)) := by
  rw [ranked]
  refine ((List.mergeSort_perm _ _).map _).trans (List.Perm.of_eq ?_)
  rw [List.map_map]
  rfl

end ProviderCatalog.Search

/-! ### Files -/

namespace ProviderCatalog

namespace Search

/-- Quotes add no lone surrogates. -/
theorem isUnicode_quoted {t : Text} (h : t.isUnicode = true) : (quoted t).isUnicode = true := by
  refine Text.isUnicode_iff.mpr fun x hx => ?_
  simp only [quoted, List.cons_append, List.mem_cons, List.mem_append, List.mem_flatMap,
    List.not_mem_nil, or_false] at hx
  rcases hx with rfl | ⟨p, hp, hx⟩ | rfl
  · rfl
  · split at hx
    · simp only [List.mem_cons, List.not_mem_nil, or_false, or_self] at hx
      exact hx ▸ rfl
    · exact List.mem_singleton.mp hx ▸ Text.isUnicode_iff.mp h p hp
  · rfl

end Search

namespace Store

open Search (Word)

variable {t : Tables} {phrase : List Word} {query : Text} {limit : Int}

/-- The words of a phrase stand next to each other in the name, the path or the content of a
file. -/
def Mentions (phrase : List Word) (f : RepositoryFile) : Prop :=
  ∃ text ∈ fileTexts f, phrase <:+: Search.words text

instance (phrase : List Word) (f : RepositoryFile) : Decidable (Mentions phrase f) :=
  inferInstanceAs (Decidable (∃ text ∈ fileTexts f, phrase <:+: Search.words text))

private theorem isHit_indexed (hphrase : phrase ≠ []) (r : Row RepositoryFile) :
    (indexed r).isHit phrase = decide (Mentions phrase r.value) := by
  rw [Bool.eq_iff_iff, Search.isHit_iff hphrase, decide_eq_true_iff]
  simp only [indexed, Search.Index.document, List.mem_map, exists_exists_and_eq_and, Mentions]

namespace Tables

/-- The files behind the hits of the index are those that mention the phrase. -/
theorem Valid.ranked_files (h : t.Valid) (hphrase : phrase ≠ []) :
    ((Search.ranked phrase t.files.index).filterMap t.files.get?).Perm
      (t.files.values.filter (Mentions phrase ·)) := by
  have hhits : (t.files.index.filter (·.isHit phrase)).map (·.value) =
      (t.files.rows.filter (Mentions phrase ·.value)).map (·.id) := by
    rw [h.mirrored, indexOf_eq, List.filter_map, List.map_map]
    refine congrArg _ (List.filter_congr fun r _ => ?_)
    exact isHit_indexed hphrase r
  have hfiles : ((t.files.rows.filter (Mentions phrase ·.value)).map (·.id)).filterMap t.files.get? =
      t.files.values.filter (Mentions phrase ·) := by
    have hget : ∀ r ∈ t.files.rows.filter (Mentions phrase ·.value),
        t.files.get? r.id = some r.value :=
      fun r hr => h.files.get?_eq_some.mpr (List.mem_of_mem_filter hr)
    rw [List.filterMap_map, Table.values, List.filter_map]
    exact (List.filterMap_congr hget).trans (congrFun List.filterMap_eq_map _)
  exact ((Search.ranked_perm phrase _).filterMap _).trans (.of_eq (by rw [hhits, hfiles]))

/-- A search finds the files that mention the words of the query. -/
theorem Valid.search_eq_ok (h : t.Valid) (hterminator : Search.terminator ∉ query)
    (hunicode : query.isUnicode = true) (hwords : Search.words query ≠ [])
    (hlimit : (t.files.rows.length : Int) ≤ limit) (hfits : limit < 2 ^ 63) :
    ∃ found, t.search query limit = .ok found ∧
      found.Perm ((t.files.values.filter (Mentions (Search.words query) ·)).map readFile) := by
  have hbind : Param.bind [.text (Search.quoted query), .number limit] = .ok () := by
    rw [Param.bind_eq_ok_iff]
    simp only [List.forall_mem_cons, Param.text_fits_iff, Param.fits_iff]
    exact ⟨Search.isUnicode_quoted hunicode, by omega, List.forall_mem_nil _⟩
  obtain ⟨w, ws, hquery⟩ := List.exists_cons_of_ne_nil hwords
  have hperm := (h.ranked_files hwords).map readFile
  have hall : (((Search.ranked (Search.words query) t.files.index).filterMap t.files.get?).map
      readFile).length ≤ limit.toNat := by
    rw [hperm.length_eq, List.length_map]
    refine Nat.le_trans (List.length_filter_le _ _) ?_
    rw [Table.values, List.length_map]
    omega
  refine ⟨_, ?_, hperm⟩
  rw [search, hbind, Search.phrase?_quoted hterminator, hquery]
  dsimp only
  rw [← hquery, if_neg (by omega), List.take_of_length_le hall]
  rfl

end Tables

/-- Whatever calls were made to an initialised store, a search for a query with a word, without a
zero and without lone surrogates, and with a limit that fits into a column and is not below the
number of stored files, finds exactly the stored files that mention the words of the query next to
each other. -/
theorem search_after_calls (calls : List Call) (hterminator : Search.terminator ∉ query)
    (hunicode : query.isUnicode = true) (hwords : Search.words query ≠ [])
    (hlimit : ((ready.after calls).contents.files.rows.length : Int) ≤ limit)
    (hfits : limit < 2 ^ 63) :
    ∃ found, ({ ready.after calls with outOfOrder := [] } : Store).search query limit = .ok found ∧
      found.Perm (((ready.after calls).contents.files.values.filter
        (Mentions (Search.words query) ·)).map readFile) := by
  obtain ⟨htables, hvalid⟩ := ready_after calls
  obtain ⟨found, hsearch, hperm⟩ :=
    hvalid.search_eq_ok hterminator hunicode hwords hlimit hfits
  have hread : ({ ready.after calls with outOfOrder := [] } : Store).search query limit = _ :=
    read_inOrder rfl htables
  exact ⟨found, hread.trans hsearch, hperm⟩

/-! ### A file that was replaced -/

/-- Calls that leave a repository with a file whose content was replaced. -/
def replacedFileCalls : List Call :=
  [⟨[], .insertRepository ⟨none, "x", "acme/x", none, [], none, none⟩⟩,
    ⟨[], .insertFile ⟨1, "a.go", "a.go", "go", "package old", 11⟩⟩,
    ⟨[], .insertFile ⟨1, "b.go", "b.go", "go", "package b", 9⟩⟩,
    ⟨[], .insertFile ⟨1, "a.go", "a.go", "go", "package \"a\"", 11⟩⟩]

/-- The file is found by its new content, whatever stands between the words of the query. -/
theorem search_after_calls_of_replaced :
    ∃ found, ({ ready.after replacedFileCalls with outOfOrder := [] } : Store).search
        "PACKAGE OR \"A" 2 = .ok found ∧ found.Perm [] ∧
      ∃ found', ({ ready.after replacedFileCalls with outOfOrder := [] } : Store).search
        "Package \"*\" A" 2 = .ok found' ∧
        found'.Perm [⟨1, "a.go", "a.go", "go", "package \"a\"", 11⟩] := by
  obtain ⟨found, hsearch, hperm⟩ := @search_after_calls "PACKAGE OR \"A" 2 replacedFileCalls
    (by decide) (by decide) (by decide +kernel) (by decide +kernel) (by decide)
  obtain ⟨found', hsearch', hperm'⟩ := @search_after_calls "Package \"*\" A" 2 replacedFileCalls
    (by decide) (by decide) (by decide +kernel) (by decide +kernel) (by decide)
  refine ⟨found, hsearch, hperm.trans (.of_eq (by decide +kernel)), found', hsearch',
    hperm'.trans (.of_eq (by decide +kernel))⟩

/-- Neither a limit nor a query that fits into no column is searched for. -/
theorem search_refuses_unfitting :
    (¬∀ (calls : List Call) (query : Text) (limit : Int), Search.terminator ∉ query →
      Search.words query ≠ [] → query.isUnicode = true →
      ((ready.after calls).contents.files.rows.length : Int) ≤ limit →
      ∃ found,
        ({ ready.after calls with outOfOrder := [] } : Store).search query limit = .ok found ∧
        found.Perm (((ready.after calls).contents.files.values.filter
          (Mentions (Search.words query) ·)).map readFile)) ∧
    ¬∀ (calls : List Call) (query : Text) (limit : Int), Search.terminator ∉ query →
      Search.words query ≠ [] → limit < 2 ^ 63 →
      ((ready.after calls).contents.files.rows.length : Int) ≤ limit →
      ∃ found,
        ({ ready.after calls with outOfOrder := [] } : Store).search query limit = .ok found ∧
        found.Perm (((ready.after calls).contents.files.values.filter
          (Mentions (Search.words query) ·)).map readFile) := by
  constructor
  · intro h
    obtain ⟨found, hsearch, -⟩ := h replacedFileCalls "package" (2 ^ 63) (by decide)
      (by decide +kernel) (by decide) (by decide +kernel)
    have hfails : ({ ready.after replacedFileCalls with outOfOrder := [] } : Store).search
        "package" (2 ^ 63) = .error .numberTooLarge := rfl
    exact nomatch hsearch.symm.trans hfails
  · intro h
    obtain ⟨found, hsearch, -⟩ := h replacedFileCalls (("package " : Text) ++ [.surrogate 0]) 2
      (by decide) (by decide +kernel) (by decide) (by decide +kernel)
    have hfails : ∃ f, ({ ready.after replacedFileCalls with outOfOrder := [] } : Store).search
        (("package " : Text) ++ [.surrogate 0]) 2 = .error f := ⟨_, rfl⟩
    obtain ⟨f, hf⟩ := hfails
    exact nomatch hsearch.symm.trans hf

end Store

end ProviderCatalog
