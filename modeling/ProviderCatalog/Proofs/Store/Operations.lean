import ProviderCatalog.Store.Basic
import ProviderCatalog.Proofs.Computation

/-!
# Reading from and writing to a store

An operation of a store looks at the tables when it is in order, and changes nothing but the tables.

## Main results

* `Store.read_ok`, `Store.write_ok`, `Store.update_ok`: when a store is read and written to.
* `Store.read_inOrder`, `Store.write_inOrder`, `Store.update_inOrder`: a store in order.
* `Store.bind_error`: values that do not fit are no refusal.
-/

namespace ProviderCatalog

variable {α : Type}

namespace Store

variable {s s' : Store} {o : Operation} {table : String}

/-- A read looks at the tables when the operation is in order. -/
theorem read_ok {f : Tables → Except Fault α} {a : α} :
    s.read o table f = .ok a ↔
      s.outOfOrder.contains o = false ∧ ∃ t, s.tables = some t ∧ f t = .ok a := by
  rw [Store.read, except_bind_eq_ok, Store.require]
  cases s.outOfOrder.contains o with
  | true => exact ⟨fun ⟨_, h, _⟩ => (nomatch h), fun ⟨h, _⟩ => (nomatch h)⟩
  | false =>
    cases s.tables with
    | none => exact ⟨fun ⟨_, _, h⟩ => (nomatch h), fun ⟨_, _, h, _⟩ => (nomatch h)⟩
    | some t =>
      constructor
      · rintro ⟨-, -, h⟩
        exact ⟨rfl, t, rfl, h⟩
      · rintro ⟨-, u, hu, h⟩
        cases hu
        exact ⟨(), rfl, h⟩

/-- A write is carried out on the tables when the operation is in order. -/
theorem write_ok {f : Tables → Except Fault (Tables × α)} {a : α} :
    s.write o table f = .ok (s', a) ↔ s.outOfOrder.contains o = false ∧
      ∃ t t', s.tables = some t ∧ f t = .ok (t', a) ∧ s' = { s with tables := some t' } := by
  rw [Store.write, except_bind_eq_ok, Store.require]
  cases s.outOfOrder.contains o with
  | true => exact ⟨fun ⟨_, h, _⟩ => (nomatch h), fun ⟨h, _⟩ => (nomatch h)⟩
  | false =>
    cases s.tables with
    | none => exact ⟨fun ⟨_, _, h⟩ => (nomatch h), fun ⟨_, _, _, h, _⟩ => (nomatch h)⟩
    | some t =>
      constructor
      · rintro ⟨-, -, h⟩
        obtain ⟨⟨t', b⟩, hf, h⟩ := except_bind_eq_ok.mp h
        cases h
        exact ⟨rfl, t, t', rfl, hf, rfl⟩
      · rintro ⟨-, u, t', hu, hf, rfl⟩
        cases hu
        exact ⟨(), rfl, except_bind_eq_ok.mpr ⟨_, hf, rfl⟩⟩

theorem update_ok {f : Tables → Except Fault Tables} :
    s.update o table f = .ok s' ↔ s.outOfOrder.contains o = false ∧
      ∃ t t', s.tables = some t ∧ f t = .ok t' ∧ s' = { s with tables := some t' } := by
  rw [Store.update, except_bind_eq_ok]
  constructor
  · rintro ⟨⟨s'', ⟨⟩⟩, hwrite, h⟩
    cases h
    obtain ⟨horder, t, t', ht, hf, rfl⟩ := write_ok.mp hwrite
    obtain ⟨u, hu, h⟩ := except_bind_eq_ok.mp hf
    cases h
    exact ⟨horder, t, t', ht, hu, rfl⟩
  · rintro ⟨horder, t, t', ht, hf, rfl⟩
    exact ⟨_, write_ok.mpr ⟨horder, t, t', ht, except_bind_eq_ok.mpr ⟨t', hf, rfl⟩, rfl⟩, rfl⟩

/-! ### Stores in order -/

section InOrder

variable {t : Tables}

theorem read_inOrder {f : Tables → Except Fault α} (horder : s.outOfOrder.contains o = false)
    (ht : s.tables = some t) : s.read o table f = f t := by
  simp only [Store.read, Store.require, horder, ht]
  rfl

theorem write_inOrder {f : Tables → Except Fault (Tables × α)}
    (horder : s.outOfOrder.contains o = false) (ht : s.tables = some t) :
    s.write o table f = (f t).map fun r => ({ s with tables := some r.1 }, r.2) := by
  simp only [Store.write, Store.require, horder, ht]
  rfl

theorem write_outOfOrder (f : Tables → Except Fault (Tables × α))
    (horder : s.outOfOrder.contains o = true) :
    s.write o table f = .error (.refused .outOfOrder) := by
  simp only [Store.write, Store.require, horder]
  rfl

theorem update_inOrder {f : Tables → Except Fault Tables}
    (horder : s.outOfOrder.contains o = false) (ht : s.tables = some t) :
    s.update o table f = (f t).map fun t' => { s with tables := some t' } := by
  rw [Store.update, write_inOrder horder ht]
  cases f t <;> rfl

end InOrder

/-- A value that does not fit into its column is no refusal. -/
theorem bind_error {ps : List Param} {f : Fault} (h : Param.bind ps = .error f) :
    f.isRefusal = false := by
  unfold Param.bind at h
  split at h
  · rename_i g hfind
    cases h
    obtain ⟨p, -, hp⟩ := List.exists_of_findSome?_eq_some hfind
    cases p with
    | number n =>
      rw [Param.fault?] at hp
      split at hp
      · exact nomatch hp
      · cases hp
        rfl
    | text x =>
      obtain ⟨e, -, rfl⟩ := Option.map_eq_some_iff.mp hp
      rfl
    | null => exact nomatch hp
  · exact nomatch h

end Store

end ProviderCatalog
