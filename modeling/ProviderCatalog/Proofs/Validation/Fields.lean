import ProviderCatalog.Validation.Record
import Mathlib.Data.List.Forall2

/-!
# What fields have been read from

A record that could be read was put together from fields that could be read. So a value tells what
its datum had at the name of the field: a value that was read, or nothing where the field falls back
to a default. Where a field may be null, there is no text just if the datum has none.

## Main definitions

* `Checked.value?`: the value of a datum that could be read.

## Main results

* `Checked.map_eq_valid`, `Checked.seq_eq_valid`, `Checked.record_eq_valid`,
  `Checked.each_eq_valid`: the parts of records and of lists.
* `Checked.required_eq_valid`, `Checked.withDefault_cases`: what a field was read from.
* `Checked.withDefault_eq_valid`, `Checked.optional_text_eq_valid`: a field by the value of its
  datum.
-/

namespace ProviderCatalog.Checked

variable {α β : Type} {d : Datum} {name : String} {read : Datum → Checked α}

/-- The value, if there is one. -/
def value? : Checked α → Option α
  | valid a => some a
  | invalid _ => none

theorem value?_eq_some {x : Checked α} {a : α} : x.value? = some a ↔ x = valid a := by
  cases x with
  | valid b => exact ⟨fun h => congrArg _ (Option.some.inj h), fun h => congrArg _ (valid.inj h)⟩
  | invalid es => constructor <;> rintro ⟨⟩

/-! ### Parts -/

theorem map_eq_valid {f : α → β} {x : Checked α} {b : β} (h : f <$> x = valid b) :
    ∃ a, x = valid a ∧ f a = b := by
  cases x with
  | valid a => exact ⟨a, rfl, valid.inj h⟩
  | invalid es => exact nomatch h

theorem seq_eq_valid {f : Checked (α → β)} {x : Checked α} {b : β} (h : f <*> x = valid b) :
    ∃ g a, f = valid g ∧ x = valid a ∧ g a = b := by
  cases f with
  | valid g =>
    cases x with
    | valid a => exact ⟨g, a, rfl, rfl, valid.inj h⟩
    | invalid es => exact nomatch h
  | invalid es =>
    cases x with
    | valid a => exact nomatch h
    | invalid es' => exact nomatch h

theorem within_eq_valid {s : Step} {x : Checked α} {a : α} (h : x.within s = valid a) :
    x = valid a := by
  cases x with
  | valid b => exact h
  | invalid es => exact nomatch h

theorem record_eq_valid {a : α} (h : record read d = valid a) : read d = valid a := by
  rw [record.eq_def] at h
  split at h
  · exact h
  · cases h

/-- The items of a list are read one by one. -/
theorem each_eq_valid {read : β → Checked α} {i : Nat} {items : List β} {as : List α}
    (h : each read i items = valid as) : items.Forall₂ (fun item a => read item = valid a) as := by
  induction items generalizing i as with
  | nil =>
    cases h
    exact .nil
  | cons item items ih =>
    obtain ⟨f, rest, hf, hrest, rfl⟩ := seq_eq_valid (f := map List.cons _) h
    obtain ⟨a, ha, rfl⟩ := map_eq_valid hf
    exact .cons (within_eq_valid ha) (ih hrest)

/-! ### Fields -/

theorem required_eq_valid {a : α} (h : required d name read = valid a) :
    ∃ v, d.get? name = some v ∧ read v = valid a := by
  rw [required] at h
  split at h
  · rename_i v hv
    exact ⟨v, hv, within_eq_valid h⟩
  · cases h

theorem withDefault_cases {default a : α} (h : withDefault d name default read = valid a) :
    d.get? name = none ∧ a = default ∨ ∃ v, d.get? name = some v ∧ read v = valid a := by
  rw [withDefault] at h
  split at h
  · rename_i v hv
    exact .inr ⟨v, hv, within_eq_valid h⟩
  · rename_i hnone
    cases h
    exact .inl ⟨hnone, rfl⟩

theorem withDefault_eq_valid {default a : α} (h : withDefault d name default read = valid a) :
    some a = (d.get? name).elim (some default) fun v => (read v).value? := by
  rcases withDefault_cases h with ⟨hnone, rfl⟩ | ⟨v, hv, hread⟩
  · rw [hnone]
    rfl
  · rw [hv, Option.elim_some, hread]
    rfl

/-- Null is no text, so a field that may be null has a text just if it is one. -/
theorem optional_text_eq_valid {t? : Option Text} (h : optional d name text = valid t?) :
    t? = (d.get? name).bind fun v => (text v).value? := by
  have hnullable (v : Datum) : (nullable text v).value?.getD none = (text v).value? := by
    rw [nullable.eq_def]
    split
    · rfl
    · cases text v <;> rfl
  rcases withDefault_cases h with ⟨hnone, rfl⟩ | ⟨v, hv, hread⟩
  · rw [hnone]
    rfl
  · rw [hv, Option.bind_some, ← hnullable, hread]
    rfl

end ProviderCatalog.Checked
