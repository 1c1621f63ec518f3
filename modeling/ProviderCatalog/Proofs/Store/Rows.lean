import ProviderCatalog.Store.Table
import Mathlib.Data.List.Basic
import Mathlib.Data.List.Pairwise

/-!
# Rows under their numbers and keys

Writing a value either appends a row with the next number or changes the value of one row, whose
number and key stay. So the numbers of a table ascend and its keys differ, and a number that a key
has once stays its number. Of the values that are stored one after the other under their keys, the
last one of each key stays, and so does what was there under other keys. Storing the same values
once more changes no row.

## Main definitions

* `Table.Sound`: numbers ascend up to the last one given out, and keys differ.
* `IsLast`: the last element with a key in a list.
* `Table.putAll`: values stored one after the other.

## Main results

* `Table.putMerging_cases`: the two things that a write can do.
* `Table.Sound.putMerging`, `Table.Sound.erase`, `Table.Sound.change`: soundness is kept.
* `Table.filter_put`: rows with other keys are not touched.
* `Table.Sound.mem_values_putAll`: the values that are there afterwards.
* `Table.Sound.rows_putAll_again`: the same values stored once more.
-/

namespace ProviderCatalog.Store

variable {α κ : Type}

namespace Table

/-- The numbers ascend from one up to the last that was given out, and no two values have the same
key. -/
structure Sound (key : α → κ) (t : Table α) : Prop where
  counting : 0 ≤ t.last
  positive : ∀ r ∈ t.rows, 0 < r.id
  ascending : t.rows.Pairwise (·.id < ·.id)
  bounded : ∀ r ∈ t.rows, r.id ≤ t.last
  keyed : t.rows.Pairwise fun r r' => key r.value ≠ key r'.value

/-! ### What a write does -/

section Writing

variable [BEq κ] [LawfulBEq κ] {key : α → κ} {merge : α → α} {a : α} {t : Table α}

private theorem putRow_of_absent {rows : List (Row α)} (merge : α → α) (id : Int)
    (h : ∀ r ∈ rows, key r.value ≠ key a) :
    putRow key merge a id rows = rows ++ [⟨id, a⟩] ∧ idOf key a id rows = id := by
  induction rows with
  | nil => exact ⟨rfl, rfl⟩
  | cons r rows ih =>
    have hr : (key r.value == key a) = false := by simpa using h r List.mem_cons_self
    obtain ⟨hput, hid⟩ := ih fun x hx => h x (List.mem_cons_of_mem _ hx)
    simp only [putRow, idOf, hr, hput, hid, Bool.false_eq_true, if_false, List.cons_append,
      and_self]

private theorem putRow_of_present {before : List (Row α)} {r : Row α} (merge : α → α) (id : Int)
    (after : List (Row α)) (hbefore : ∀ x ∈ before, key x.value ≠ key a)
    (hr : key r.value = key a) :
    putRow key merge a id (before ++ r :: after) = before ++ ⟨r.id, merge r.value⟩ :: after ∧
      idOf key a id (before ++ r :: after) = r.id := by
  induction before with
  | nil => simp only [List.nil_append, putRow, idOf, hr, BEq.rfl, if_true, and_self]
  | cons x before ih =>
    have hx : (key x.value == key a) = false := by simpa using hbefore x List.mem_cons_self
    obtain ⟨hput, hid⟩ := ih fun y hy => hbefore y (List.mem_cons_of_mem _ hy)
    simp only [List.cons_append, putRow, idOf, hx, hput, hid, Bool.false_eq_true, if_false,
      and_self]

omit [BEq κ] [LawfulBEq κ] in
private theorem absent_or_first (key : α → κ) (k : κ) (rows : List (Row α)) :
    (∀ r ∈ rows, key r.value ≠ k) ∨
      ∃ before r after, rows = before ++ r :: after ∧ (∀ x ∈ before, key x.value ≠ k) ∧
        key r.value = k := by
  induction rows with
  | nil => exact Or.inl fun r hr => nomatch hr
  | cons r rows ih =>
    by_cases hr : key r.value = k
    · exact Or.inr ⟨[], r, rows, rfl, fun x hx => (nomatch hx), hr⟩
    · rcases ih with habsent | ⟨before, x, after, rfl, hbefore, hx⟩
      · exact Or.inl fun x hx => (List.mem_cons.mp hx).elim (· ▸ hr) (habsent x)
      · refine Or.inr ⟨r :: before, x, after, rfl, fun y hy => ?_, hx⟩
        exact (List.mem_cons.mp hy).elim (· ▸ hr) (hbefore y)

/-- A value under a new key gets a row at the end with the next number; a value under a key that is
there changes the first row with the key, which keeps its number and its place. -/
theorem putMerging_cases (t : Table α) (key : α → κ) (merge : α → α) (a : α) :
    ((∀ r ∈ t.rows, key r.value ≠ key a) ∧ t.putMerging key merge a = (t.append a, t.next)) ∨
      ∃ before r after, t.rows = before ++ r :: after ∧ (∀ x ∈ before, key x.value ≠ key a) ∧
        key r.value = key a ∧ t.putMerging key merge a =
          (⟨t.next, before ++ ⟨r.id, merge r.value⟩ :: after⟩, r.id) := by
  rcases absent_or_first key (key a) t.rows with h | ⟨before, r, after, hrows, hbefore, hr⟩
  · obtain ⟨hput, hid⟩ := putRow_of_absent merge t.next h
    exact Or.inl ⟨h, by rw [Table.putMerging, hput, hid, Table.append]⟩
  · obtain ⟨hput, hid⟩ := putRow_of_present merge t.next after hbefore hr
    exact Or.inr ⟨before, r, after, hrows, hbefore, hr, by
      rw [Table.putMerging, hrows, hput, hid]⟩

/-- A value under a new key gets a row at the end. -/
theorem put_of_new (h : ∀ r ∈ t.rows, key r.value ≠ key a) : t.put key a = (t.append a, t.next) := by
  rcases putMerging_cases t key (fun _ => a) a with ⟨-, hput⟩ | ⟨before, r, after, hrows, -, hr, -⟩
  · exact hput
  · exact absurd hr (h r (by simp [hrows]))

/-- The row that is found under the key afterwards is the one that was written: a new one, or the
one that was found before. -/
theorem find?_putMerging (hmerge : ∀ v, key v = key a → key (merge v) = key a) :
    (t.putMerging key merge a).1.find? (key · == key a) =
      some ⟨(t.putMerging key merge a).2,
        (t.find? (key · == key a)).elim a fun r => merge r.value⟩ ∧
    (t.putMerging key merge a).2 = (t.find? (key · == key a)).elim t.next (·.id) := by
  have hnone {rows : List (Row α)} (h : ∀ r ∈ rows, key r.value ≠ key a) :
      rows.find? (fun r => key r.value == key a) = none :=
    List.find?_eq_none.mpr fun r hr => by simpa using h r hr
  rcases putMerging_cases t key merge a with
    ⟨habsent, hput⟩ | ⟨before, r, after, hrows, hbefore, hr, hput⟩
  · simp only [hput, Table.find?, Table.append, List.find?_append, hnone habsent, Option.none_or,
      List.find?_cons, BEq.rfl, Option.elim_none, and_self]
  · simp only [hput, hrows, Table.find?, List.find?_append, hnone hbefore, Option.none_or,
      List.find?_cons, hr, hmerge _ hr, BEq.rfl, Option.elim_some, and_self]

/-- Every row of the table after a write was there before or is the one that was written. -/
theorem mem_put {r : Row α} (h : r ∈ (t.put key a).1.rows) :
    r ∈ t.rows ∨ r = ⟨(t.put key a).2, a⟩ := by
  rcases putMerging_cases t key (fun _ => a) a with
    ⟨-, hput⟩ | ⟨before, r', after, hrows, -, -, hput⟩
  · rw [Table.put, hput] at h ⊢
    simpa only [Table.append, List.mem_append, List.mem_singleton] using h
  · rw [Table.put, hput] at h ⊢
    rw [hrows]
    rcases List.mem_append.mp h with h | h
    · exact Or.inl (List.mem_append_left _ h)
    · rcases List.mem_cons.mp h with rfl | h
      · exact Or.inr rfl
      · exact Or.inl (List.mem_append_right _ (List.mem_cons_of_mem _ h))

/-- The row that was written is in the table. -/
theorem put_mem : (⟨(t.put key a).2, a⟩ : Row α) ∈ (t.put key a).1.rows := by
  rcases putMerging_cases t key (fun _ => a) a with
    ⟨-, hput⟩ | ⟨before, r', after, -, -, -, hput⟩
  · rw [Table.put, hput]
    exact List.mem_append_right _ List.mem_cons_self
  · rw [Table.put, hput]
    exact List.mem_append_right _ List.mem_cons_self

/-- A row keeps its number and its key when a value is stored. -/
theorem exists_mem_putMerging (hmerge : ∀ v, key v = key a → key (merge v) = key a) {r : Row α}
    (h : r ∈ t.rows) :
    ∃ r' ∈ (t.putMerging key merge a).1.rows, r'.id = r.id ∧ key r'.value = key r.value := by
  rcases putMerging_cases t key merge a with ⟨-, hput⟩ | ⟨before, r', after, hrows, -, hr', hput⟩
  · rw [hput]
    exact ⟨r, List.mem_append_left _ h, rfl, rfl⟩
  · rw [hput]
    rw [hrows] at h
    rcases List.mem_append.mp h with h | h
    · exact ⟨r, List.mem_append_left _ h, rfl, rfl⟩
    · rcases List.mem_cons.mp h with rfl | h
      · exact ⟨_, List.mem_append_right _ List.mem_cons_self, rfl, (hmerge _ hr').trans hr'.symm⟩
      · exact ⟨r, List.mem_append_right _ (List.mem_cons_of_mem _ h), rfl, rfl⟩

theorem exists_mem_put (key : α → κ) (a : α) {r : Row α} (h : r ∈ t.rows) :
    ∃ r' ∈ (t.put key a).1.rows, r'.id = r.id ∧ key r'.value = key r.value :=
  exists_mem_putMerging (fun _ _ => rfl) h

end Writing

/-! ### Numbers -/

theorem has_iff {t : Table α} {n : Int} : t.has n = true ↔ ∃ r ∈ t.rows, r.id = n := by
  simp only [Table.has, List.any_eq_true, beq_iff_eq]

theorem has_of_mem {t : Table α} {r : Row α} (h : r ∈ t.rows) : t.has r.id = true :=
  has_iff.mpr ⟨r, h, rfl⟩

theorem has_putMerging [BEq κ] [LawfulBEq κ] {t : Table α} {n : Int} {key : α → κ}
    {merge : α → α} {a : α} (hmerge : ∀ v, key v = key a → key (merge v) = key a)
    (h : t.has n = true) : (t.putMerging key merge a).1.has n = true := by
  obtain ⟨r, hr, rfl⟩ := has_iff.mp h
  obtain ⟨r', hr', hid, -⟩ := exists_mem_putMerging hmerge hr
  exact has_iff.mpr ⟨r', hr', hid⟩

theorem has_put [BEq κ] [LawfulBEq κ] {t : Table α} {n : Int} (key : α → κ) (a : α)
    (h : t.has n = true) : (t.put key a).1.has n = true :=
  has_putMerging (fun _ _ => rfl) h

/-- Numbers are not changed with values. -/
theorem has_change (t : Table α) (f : α → α) (n : Int) : (t.change f).has n = t.has n := by
  rw [has, change, List.any_map, has]
  rfl

/-! ### Rows that meet a condition -/

section Conditions

variable {t : Table α} {p q : Row α → Bool} {n : Int}

theorem meets_iff : t.meets p n = true ↔ ∃ r ∈ t.rows, r.id = n ∧ p r = true := by
  simp only [meets, List.any_eq_true, Bool.and_eq_true, beq_iff_eq]

/-- A number that is there stays if its row does not meet the condition of those that go. -/
theorem has_erase_of_not_meets (h : t.has n = true) (hnot : t.meets p n = false) :
    (t.erase p).has n = true := by
  obtain ⟨r, hr, rfl⟩ := has_iff.mp h
  have hp : p r = false := Bool.eq_false_iff.mpr fun hp =>
    Bool.eq_false_iff.mp hnot (meets_iff.mpr ⟨r, hr, rfl, hp⟩)
  exact has_iff.mpr ⟨r, List.mem_filter.mpr ⟨hr, by rw [hp, Bool.not_false]⟩, rfl⟩

theorem erase_congr (h : ∀ r ∈ t.rows, p r = q r) : t.erase p = t.erase q := by
  rw [erase, erase]
  exact congrArg _ (List.filter_congr fun r hr => congrArg _ (h r hr))

/-- A row goes with a number if it is there and has that number. -/
theorem meets_id (t : Table α) (id n : Int) :
    t.meets (·.id == id) n = (t.has n && n == id) := by
  rw [Bool.eq_iff_iff, meets_iff, Bool.and_eq_true, has_iff, beq_iff_eq]
  constructor
  · rintro ⟨r, hr, rfl, hid⟩
    exact ⟨⟨r, hr, rfl⟩, beq_iff_eq.mp hid⟩
  · rintro ⟨⟨r, hr, rfl⟩, hid⟩
    exact ⟨r, hr, rfl, beq_iff_eq.mpr hid⟩

theorem meets_congr (h : ∀ r ∈ t.rows, p r = q r) : t.meets p = t.meets q :=
  funext fun n => Bool.eq_iff_iff.mpr <| meets_iff.trans <| Iff.trans
    (exists_congr fun r => and_congr_right fun hr => by rw [h r hr]) meets_iff.symm

theorem meets_change (t : Table α) (f : α → α) (p : Row α → Bool) :
    (t.change f).meets p = t.meets fun r => p ⟨r.id, f r.value⟩ := by
  funext n
  rw [meets, change, List.any_map]
  rfl

theorem erase_change (t : Table α) (f : α → α) (p : Row α → Bool) :
    (t.change f).erase p = (t.erase fun r => p ⟨r.id, f r.value⟩).change f := by
  rw [erase, change, List.filter_map]
  rfl

theorem erase_erase (t : Table α) (p : Row α → Bool) : (t.erase p).erase p = t.erase p := by
  rw [erase, erase, List.filter_filter]
  simp only [Bool.and_self]

end Conditions

/-! ### Soundness -/

namespace Sound

variable {key : α → κ} {t : Table α}

theorem empty (key : α → κ) : Sound key (Table.empty : Table α) :=
  ⟨Int.le_refl 0, fun _ h => (nomatch h), List.Pairwise.nil, fun _ h => (nomatch h),
    List.Pairwise.nil⟩

/-- A number belongs to one row. -/
theorem eq_of_id (h : Sound key t) {r r' : Row α} (hr : r ∈ t.rows) (hr' : r' ∈ t.rows)
    (hid : r.id = r'.id) : r = r' := by
  by_contra hne
  have : Std.Symm fun x y : Row α => x.id ≠ y.id := ⟨fun _ _ hxy => hxy.symm⟩
  have hids : t.rows.Pairwise (·.id ≠ ·.id) := h.ascending.imp Int.ne_of_lt
  exact hids.forall hr hr' hne hid

/-- A key belongs to one row. -/
theorem eq_of_key (h : Sound key t) {r r' : Row α} (hr : r ∈ t.rows) (hr' : r' ∈ t.rows)
    (hkey : key r.value = key r'.value) : r = r' := by
  by_contra hne
  have : Std.Symm fun x y : Row α => key x.value ≠ key y.value := ⟨fun _ _ hxy => hxy.symm⟩
  exact h.keyed.forall hr hr' hne hkey

theorem get?_eq_some (h : Sound key t) {n : Int} {a : α} :
    t.get? n = some a ↔ (⟨n, a⟩ : Row α) ∈ t.rows := by
  rw [Table.get?, Option.map_eq_some_iff]
  constructor
  · rintro ⟨r, hr, rfl⟩
    have hid : r.id = n := by simpa using List.find?_some hr
    exact hid ▸ List.mem_of_find?_eq_some hr
  · intro hmem
    cases hfind : t.rows.find? (·.id == n) with
    | none => exact absurd (List.find?_eq_none.mp hfind _ hmem) (by simp)
    | some r =>
      have hid : r.id = n := by simpa using List.find?_some hfind
      exact ⟨r, rfl, congrArg Row.value
        (h.eq_of_id (List.mem_of_find?_eq_some hfind) hmem hid)⟩

/-- The row found by a key is the row that has it. -/
theorem find?_eq_some [BEq κ] [LawfulBEq κ] (h : Sound key t) {k : κ} {r : Row α} :
    t.find? (key · == k) = some r ↔ r ∈ t.rows ∧ key r.value = k := by
  rw [Table.find?]
  constructor
  · intro hr
    exact ⟨List.mem_of_find?_eq_some hr, by simpa using List.find?_some hr⟩
  · rintro ⟨hr, rfl⟩
    cases hfind : t.rows.find? (fun r' => key r'.value == key r.value) with
    | none => exact absurd (List.find?_eq_none.mp hfind r hr) (by simp)
    | some r' =>
      have hkey : key r'.value = key r.value := by simpa using List.find?_some hfind
      rw [h.eq_of_key (List.mem_of_find?_eq_some hfind) hr hkey]

/-! ### Soundness is kept -/

theorem append (h : Sound key t) {a : α} (ha : ∀ r ∈ t.rows, key r.value ≠ key a) :
    Sound key (t.append a) where
  counting := Int.le_trans h.counting (Int.le_of_lt (Int.lt_succ _))
  positive r hr := by
    rcases List.mem_append.mp hr with hr | hr
    · exact h.positive r hr
    · rw [List.mem_singleton.mp hr]
      exact Int.lt_add_one_of_le h.counting
  ascending := by
    refine List.pairwise_append.mpr ⟨h.ascending, List.pairwise_singleton _ _, fun r hr x hx => ?_⟩
    rw [List.mem_singleton.mp hx]
    exact Int.lt_add_one_of_le (h.bounded r hr)
  bounded r hr := by
    rcases List.mem_append.mp hr with hr | hr
    · exact Int.le_trans (h.bounded r hr) (Int.le_of_lt (Int.lt_succ _))
    · rw [List.mem_singleton.mp hr]
      exact Int.le_refl _
  keyed := by
    refine List.pairwise_append.mpr ⟨h.keyed, List.pairwise_singleton _ _, fun r hr x hx => ?_⟩
    rw [List.mem_singleton.mp hx]
    exact ha r hr

private theorem of_maps (h : Sound key t) {t' : Table α} (hlast : t.last ≤ t'.last)
    (hids : t'.rows.map (·.id) = t.rows.map (·.id))
    (hkeys : t'.rows.map (key ·.value) = t.rows.map (key ·.value)) : Sound key t' where
  counting := Int.le_trans h.counting hlast
  positive r hr := by
    have hmem : r.id ∈ t.rows.map (·.id) := hids ▸ List.mem_map_of_mem hr
    obtain ⟨r', hr', hid⟩ := List.mem_map.mp hmem
    exact hid ▸ h.positive r' hr'
  ascending := by
    rw [← List.pairwise_map (f := Row.id) (R := (· < ·)), hids, List.pairwise_map]
    exact h.ascending
  bounded r hr := by
    have hmem : r.id ∈ t.rows.map (·.id) := hids ▸ List.mem_map_of_mem hr
    obtain ⟨r', hr', hid⟩ := List.mem_map.mp hmem
    exact hid ▸ Int.le_trans (h.bounded r' hr') hlast
  keyed := by
    rw [← List.pairwise_map (f := fun r : Row α => key r.value) (R := (· ≠ ·)), hkeys,
      List.pairwise_map]
    exact h.keyed

theorem putMerging [BEq κ] [LawfulBEq κ] (h : Sound key t) {merge : α → α} {a : α}
    (hmerge : ∀ v, key v = key a → key (merge v) = key a) :
    Sound key (t.putMerging key merge a).1 := by
  rcases putMerging_cases t key merge a with ⟨ha, hput⟩ | ⟨before, r, after, hrows, -, hr, hput⟩
  · rw [hput]
    exact h.append ha
  · rw [hput]
    refine h.of_maps (Int.le_of_lt (Int.lt_succ _)) ?_ ?_
    · simp only [hrows, List.map_append, List.map_cons]
    · simp only [hrows, List.map_append, List.map_cons, hmerge _ hr, hr]

theorem put [BEq κ] [LawfulBEq κ] (h : Sound key t) (a : α) : Sound key (t.put key a).1 :=
  h.putMerging fun _ _ => rfl

theorem erase (h : Sound key t) (p : Row α → Bool) : Sound key (t.erase p) where
  counting := h.counting
  positive r hr := h.positive r (List.mem_of_mem_filter hr)
  ascending := h.ascending.filter _
  bounded r hr := h.bounded r (List.mem_of_mem_filter hr)
  keyed := h.keyed.filter _

theorem change (h : Sound key t) {f : α → α} (hf : ∀ a, key (f a) = key a) :
    Sound key (t.change f) := by
  refine h.of_maps (Int.le_refl _) ?_ ?_
  · simp only [Table.change, List.map_map]
    rfl
  · simp only [Table.change, List.map_map, Function.comp_def, hf]

end Sound

end Table

/-! ### Rows with other keys -/

namespace Table

variable [BEq κ] [LawfulBEq κ] {key : α → κ} {merge : α → α} {a : α}

/-- A write does not touch the rows with other keys. -/
theorem filter_putMerging {t : Table α} {p : Row α → Bool}
    (hp : ∀ r : Row α, key r.value = key a → p r = false)
    (hmerge : ∀ v, key v = key a → key (merge v) = key a) :
    (t.putMerging key merge a).1.rows.filter p = t.rows.filter p := by
  rcases putMerging_cases t key merge a with ⟨-, hput⟩ | ⟨before, r, after, hrows, -, hr, hput⟩
  · simp only [hput, Table.append, List.filter_append, List.filter_cons, hp ⟨t.next, a⟩ rfl,
      Bool.false_eq_true, if_false, List.filter_nil, List.append_nil]
  · simp only [hput, hrows, List.filter_append, List.filter_cons, hp r hr,
      hp ⟨r.id, merge r.value⟩ (hmerge _ hr), Bool.false_eq_true, if_false]

theorem filter_put {t : Table α} {p : Row α → Bool}
    (hp : ∀ r : Row α, key r.value = key a → p r = false) :
    (t.put key a).1.rows.filter p = t.rows.filter p :=
  filter_putMerging hp fun _ _ => rfl

end Table

end ProviderCatalog.Store

namespace ProviderCatalog

variable {α κ : Type}

/-! ### The last element with a key -/

section IsLast

variable {key : α → κ} {a b : α} {as : List α}

/-- An element of a list after which no element has its key. -/
def IsLast (key : α → κ) (a : α) (as : List α) : Prop :=
  ∃ before after, as = before ++ a :: after ∧ ∀ b ∈ after, key b ≠ key a

theorem not_isLast_nil : ¬IsLast key a [] := by
  rintro ⟨before, after, hsplit, -⟩
  simp at hsplit

theorem isLast_cons :
    IsLast key a (b :: as) ↔ (a = b ∧ ∀ c ∈ as, key c ≠ key a) ∨ IsLast key a as := by
  constructor
  · rintro ⟨before, after, hsplit, hafter⟩
    cases before with
    | nil =>
      obtain ⟨rfl, rfl⟩ := List.cons.inj hsplit
      exact .inl ⟨rfl, hafter⟩
    | cons x before =>
      obtain ⟨-, hsplit⟩ := List.cons.inj hsplit
      exact .inr ⟨before, after, hsplit, hafter⟩
  · rintro (⟨rfl, hafter⟩ | ⟨before, after, rfl, hafter⟩)
    · exact ⟨[], as, rfl, hafter⟩
    · exact ⟨b :: before, after, rfl, hafter⟩

theorem isLast_concat :
    IsLast key a (as ++ [b]) ↔ a = b ∨ (IsLast key a as ∧ key b ≠ key a) := by
  constructor
  · rintro ⟨before, after, hsplit, hafter⟩
    rcases after.eq_nil_or_concat with rfl | ⟨after, c, rfl⟩
    · exact .inl (List.append_singleton_inj.mp hsplit).2.symm
    · have hsplit' : as ++ [b] = (before ++ a :: after) ++ [c] := by simpa using hsplit
      obtain ⟨rfl, rfl⟩ := List.append_singleton_inj.mp hsplit'
      exact .inr ⟨⟨before, after, rfl, fun x hx => hafter x (by simp [hx])⟩, hafter b (by simp)⟩
  · rintro (rfl | ⟨⟨before, after, rfl, hafter⟩, hb⟩)
    · exact ⟨as, [], rfl, nofun⟩
    · refine ⟨before, after ++ [b], by simp, List.forall_mem_append.mpr ⟨hafter, ?_⟩⟩
      exact List.forall_mem_singleton.mpr hb

/-- The last images with a key are the images of the last elements with it. -/
theorem isLast_map {β κ' : Type} {key' : β → κ'} {f : α → β} {b : β} :
    IsLast key' b (as.map f) ↔ ∃ a, b = f a ∧ IsLast (fun x => key' (f x)) a as := by
  constructor
  · rintro ⟨before, after, hsplit, hafter⟩
    obtain ⟨xs, ys, rfl, rfl, hys⟩ := List.map_eq_append_iff.mp hsplit
    obtain ⟨a, zs, rfl, rfl, rfl⟩ := List.map_eq_cons_iff.mp hys
    exact ⟨a, rfl, xs, zs, rfl, fun x hx => hafter _ (List.mem_map_of_mem hx)⟩
  · rintro ⟨a, rfl, before, after, rfl, hafter⟩
    refine ⟨before.map f, after.map f, by simp, fun b hb => ?_⟩
    obtain ⟨x, hx, rfl⟩ := List.mem_map.mp hb
    exact hafter x hx

theorem IsLast.map {β κ' : Type} {key' : β → κ'} {f : α → β} (h : IsLast key a as)
    (hkey : ∀ b, key' (f b) = key' (f a) → key b = key a) : IsLast key' (f a) (as.map f) := by
  obtain ⟨before, after, rfl, hafter⟩ := h
  exact isLast_map.mpr ⟨a, rfl, before, after, rfl, fun b hb hsame => hafter b hb (hkey b hsame)⟩

/-- Of the elements with a property the last one with a key is followed by none with both. -/
theorem isLast_filter {p : α → Bool} :
    IsLast key a (as.filter p) ↔ ∃ before after, as = before ++ a :: after ∧ p a = true ∧
      ∀ b ∈ after, p b = true → key b ≠ key a := by
  constructor
  · rintro ⟨before, after, hsplit, hafter⟩
    obtain ⟨xs, ys, rfl, rfl, hys⟩ := List.filter_eq_append_iff.mp hsplit
    obtain ⟨us, vs, rfl, -, ha, rfl⟩ := List.filter_eq_cons_iff.mp hys
    exact ⟨xs ++ us, vs, by simp, ha, fun b hb hp => hafter b (List.mem_filter.mpr ⟨hb, hp⟩)⟩
  · rintro ⟨before, after, rfl, ha, hafter⟩
    refine ⟨before.filter p, after.filter p, by simp [ha], fun b hb => ?_⟩
    obtain ⟨hb, hp⟩ := List.mem_filter.mp hb
    exact hafter b hb hp

theorem IsLast.mem (h : IsLast key a as) : a ∈ as := by
  obtain ⟨before, after, rfl, -⟩ := h
  simp

/-- Each key that a list has is the key of a last element. -/
theorem exists_isLast (key : α → κ) (h : a ∈ as) : ∃ b, IsLast key b as ∧ key b = key a := by
  induction as generalizing a with
  | nil => exact nomatch h
  | cons x as ih =>
    by_cases hlater : ∃ c ∈ as, key c = key a
    · obtain ⟨c, hc, hkey⟩ := hlater
      obtain ⟨b, hb, hkey'⟩ := ih hc
      exact ⟨b, isLast_cons.mpr (.inr hb), hkey'.trans hkey⟩
    · have hnone : ∀ c ∈ as, key c ≠ key a := fun c hc hkey => hlater ⟨c, hc, hkey⟩
      obtain rfl : a = x := (List.mem_cons.mp h).resolve_right fun ha => hnone a ha rfl
      exact ⟨a, isLast_cons.mpr (.inl ⟨rfl, hnone⟩), rfl⟩

end IsLast

namespace Store.Table

/-- The table after values were stored under their keys, one after the other. -/
def putAll [BEq κ] (key : α → κ) (t : Table α) (as : List α) : Table α :=
  as.foldl (fun t a => (t.put key a).1) t

variable [BEq κ] [LawfulBEq κ] {key : α → κ} {t t' : Table α} {a b : α} {as : List α}

/-- Rows that no value is stored under are not touched. -/
theorem filter_putAll {p : Row α → Bool}
    (hp : ∀ a ∈ as, ∀ r : Row α, key r.value = key a → p r = false) :
    (t.putAll key as).rows.filter p = t.rows.filter p := by
  induction as generalizing t with
  | nil => rfl
  | cons a as ih =>
    obtain ⟨ha, has⟩ := List.forall_mem_cons.mp hp
    exact (ih has).trans (filter_put ha)

/-- A value under a key that is there changes neither the numbers nor the keys of the rows. -/
private theorem places_put (h : ∃ r ∈ t.rows, key r.value = key a) :
    (t.put key a).1.rows.map (fun r => (r.id, key r.value)) =
      t.rows.map fun r => (r.id, key r.value) := by
  rcases putMerging_cases t key (fun _ => a) a with
    ⟨habsent, -⟩ | ⟨before, r, after, hrows, -, hr, hput⟩
  · obtain ⟨r, hr, hkey⟩ := h
    exact absurd hkey (habsent r hr)
  · simp only [put, hput, hrows, List.map_append, List.map_cons, hr]

private theorem places_putAll (h : ∀ a ∈ as, ∃ r ∈ t.rows, key r.value = key a) :
    (t.putAll key as).rows.map (fun r => (r.id, key r.value)) =
      t.rows.map fun r => (r.id, key r.value) := by
  induction as generalizing t with
  | nil => rfl
  | cons a as ih =>
    obtain ⟨ha, has⟩ := List.forall_mem_cons.mp h
    refine (ih fun b hb => ?_).trans (places_put ha)
    obtain ⟨r, hr, hkey⟩ := has b hb
    obtain ⟨r', hr', -, hkey'⟩ := exists_mem_put key a hr
    exact ⟨r', hr', hkey'.trans hkey⟩

namespace Sound

theorem putAll (h : Sound key t) (as : List α) : Sound key (t.putAll key as) := by
  induction as generalizing t with
  | nil => exact h
  | cons a as ih => exact ih (h.put a)

omit [BEq κ] [LawfulBEq κ] in
/-- A key belongs to one value. -/
theorem eq_of_values (h : Sound key t) (ha : a ∈ t.values) (hb : b ∈ t.values)
    (hkey : key a = key b) : a = b := by
  obtain ⟨r, hr, rfl⟩ := List.mem_map.mp ha
  obtain ⟨r', hr', rfl⟩ := List.mem_map.mp hb
  rw [h.eq_of_key hr hr' hkey]

/-- After a write there are the value that was written and the values under other keys. -/
theorem mem_values_put (h : Sound key t) (a : α) :
    b ∈ (t.put key a).1.values ↔ b = a ∨ b ∈ t.values ∧ key a ≠ key b := by
  have hself : a ∈ (t.put key a).1.values := List.mem_map.mpr ⟨_, put_mem, rfl⟩
  constructor
  · intro hb
    by_cases hkey : key a = key b
    · exact .inl ((h.put a).eq_of_values hb hself hkey.symm)
    · obtain ⟨r, hr, rfl⟩ := List.mem_map.mp hb
      rcases mem_put hr with hr | rfl
      · exact .inr ⟨List.mem_map_of_mem hr, hkey⟩
      · exact absurd rfl hkey
  · rintro (rfl | ⟨hb, hkey⟩)
    · exact hself
    · obtain ⟨r, hr, rfl⟩ := List.mem_map.mp hb
      have hkept : r ∈ (t.put key a).1.rows.filter fun r => !(key r.value == key a) := by
        rw [filter_put fun x hx => by simp [hx]]
        exact List.mem_filter.mpr ⟨hr, by simpa using Ne.symm hkey⟩
      exact List.mem_map_of_mem (List.mem_of_mem_filter hkept)

/-- After several writes there are the last value of each key and the values under other keys. -/
theorem mem_values_putAll (h : Sound key t) (as : List α) :
    b ∈ (t.putAll key as).values ↔
      IsLast key b as ∨ b ∈ t.values ∧ ∀ a ∈ as, key a ≠ key b := by
  induction as generalizing t with
  | nil => simp [Table.putAll, not_isLast_nil]
  | cons a as ih =>
    refine (ih (h.put a)).trans ?_
    rw [h.mem_values_put, isLast_cons, List.forall_mem_cons]
    tauto

omit [BEq κ] [LawfulBEq κ] in
/-- Rows with the same numbers and keys are the same if their values are among those of the
others. -/
private theorem rows_eq (h : Sound key t)
    (hplaces : t'.rows.map (fun r => (r.id, key r.value)) =
      t.rows.map fun r => (r.id, key r.value))
    (hvalues : ∀ a ∈ t'.values, a ∈ t.values) : t'.rows = t.rows := by
  have hlength : t'.rows.length = t.rows.length := by simpa using congrArg List.length hplaces
  refine List.ext_getElem hlength fun i hi hi' => ?_
  have hplace : (t'.rows[i].id, key t'.rows[i].value) = (t.rows[i].id, key t.rows[i].value) := by
    have hget := congrArg (·[i]?) hplaces
    simpa [hi, hi'] using hget
  obtain ⟨hid, hkey⟩ := Prod.mk.inj hplace
  have hvalue : t'.rows[i].value = t.rows[i].value :=
    h.eq_of_values (hvalues _ (List.mem_map_of_mem (List.getElem_mem hi)))
      (List.mem_map_of_mem (List.getElem_mem hi')) hkey
  exact congrArg₂ Row.mk hid hvalue

/-- The same values stored once more change no row: the last value of each key is there already, and
is stored again after the others. -/
theorem rows_putAll_again (h : Sound key t) (as : List α) :
    ((t.putAll key as).putAll key as).rows = (t.putAll key as).rows := by
  have hsound := h.putAll as
  have hlast {b : α} (hb : IsLast key b as) : b ∈ (t.putAll key as).values :=
    (h.mem_values_putAll as).mpr (.inl hb)
  refine rows_eq hsound (places_putAll fun a ha => ?_) fun b hb => ?_
  · obtain ⟨b, hb, hkey⟩ := exists_isLast key ha
    obtain ⟨r, hr, rfl⟩ := List.mem_map.mp (hlast hb)
    exact ⟨r, hr, hkey⟩
  · rcases (hsound.mem_values_putAll as).mp hb with hb | ⟨hb, -⟩
    · exact hlast hb
    · exact hb

end Sound

end Store.Table

end ProviderCatalog
