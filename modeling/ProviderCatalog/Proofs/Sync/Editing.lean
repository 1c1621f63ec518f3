import ProviderCatalog.Proofs.Store.Filling
import ProviderCatalog.Proofs.Sync.Actions

/-!
# What steps do to the tables

A step changes the tables through the operations of the store only. If every write moves the tables
along a relation, so does the step, whether it fails or not; the locks and the order of the store
stay. What a step writes to the log and asks of the remote side does not matter here.

## Main definitions

* `Edited`, `Edits`: two stores or states between which the tables moved along a relation.
* `On`: a property of the tables of a state, if it has any.

## Main results

* `Leads.write`, `Leads.update`: what a write does.
* `Leads.orFail`, `Leads.orWarn`, `Leads.softly`: what becomes of an action that may fail.
-/

namespace ProviderCatalog

open Store (Tables Operation)

namespace Sync

/-- The tables of a store moved along a relation; the order of the store stayed. -/
structure Edited (E : Tables → Tables → Prop) (s s' : Store) : Prop where
  outOfOrder : s'.outOfOrder = s.outOfOrder
  tables : Option.Rel E s.tables s'.tables

/-- The tables of a state moved along a relation; the locks and the order of the store stayed. -/
structure Edits (E : Tables → Tables → Prop) (σ τ : State) : Prop where
  locks : τ.locks = σ.locks
  store : Edited E σ.store τ.store

/-- A property of the tables, if there are any. -/
def On (P : Tables → Prop) (σ : State) : Prop := ∀ t, σ.store.tables = some t → P t

instance (P : Tables → Prop) [DecidablePred P] (σ : State) : Decidable (On P σ) :=
  decidable_of_iff (∀ t ∈ σ.store.tables, P t) Iff.rfl

variable {E E' : Tables → Tables → Prop} {P P' : Tables → Prop} {s s' : Store} {σ τ : State}

instance [Std.Refl E] : Std.Refl (Edited E) where
  refl s := by
    refine ⟨rfl, ?_⟩
    cases s.tables with
    | none => exact .none
    | some t => exact .some (Std.Refl.refl t)

instance [IsTrans Tables E] : IsTrans Store (Edited E) where
  trans a b c h h' := by
    refine ⟨h'.outOfOrder.trans h.outOfOrder, ?_⟩
    have hfirst := h.tables
    have hthen := h'.tables
    revert hfirst hthen
    generalize a.tables = t, b.tables = u, c.tables = v
    rintro (hE | -) (hE' | -)
    · exact .some (IsTrans.trans _ _ _ hE hE')
    · exact .none

instance [IsPreorder Tables E] : IsPreorder Store (Edited E) where

instance [Std.Refl E] : Std.Refl (Edits E) := ⟨fun σ => ⟨rfl, Std.Refl.refl σ.store⟩⟩

instance [IsTrans Tables E] : IsTrans State (Edits E) :=
  ⟨fun _ _ _ h h' => ⟨h'.locks.trans h.locks, IsTrans.trans _ _ _ h.store h'.store⟩⟩

/-- What leaves the store and the locks moves the tables along every reflexive relation. -/
theorem Edits.aside [Std.Refl E] (hlocks : τ.locks = σ.locks) (hstore : τ.store = σ.store) :
    Edits E σ τ :=
  ⟨hlocks, hstore ▸ Std.Refl.refl _⟩

theorem Edited.mono (h : Edited E s s') (hE : ∀ t t', E t t' → E' t t') : Edited E' s s' := by
  refine ⟨h.outOfOrder, ?_⟩
  have htables := h.tables
  revert htables
  generalize s.tables = t, s'.tables = u
  rintro (hE' | -)
  · exact .some (hE _ _ hE')
  · exact .none

theorem Edits.exists (h : Edits E σ τ) {t : Tables} (ht : σ.store.tables = some t) :
    ∃ t', τ.store.tables = some t' ∧ E t t' := by
  have htables := h.store.tables
  rw [ht] at htables
  revert htables
  generalize τ.store.tables = u
  rintro ⟨hE⟩
  exact ⟨_, rfl, hE⟩

theorem Edits.on (h : Edits E σ τ) (hP : ∀ t t', E t t' → P t → P' t') (hσ : On P σ) :
    On P' τ := by
  intro t' ht'
  have htables := h.store.tables
  rw [ht'] at htables
  revert htables hσ
  rw [On]
  generalize σ.store.tables = u
  rintro hσ (hE | -)
  exact hP _ _ hE (hσ _ rfl)

end Sync

open Sync

namespace Leads

variable {α β ε : Type} {E : Tables → Tables → Prop} {P R : Tables → Prop} {Q : α → Tables → Prop}
  {o : Operation} {table : String}

/-- What starts whatever the tables are starts everywhere. -/
theorem anywhere {R : State → State → Prop} {x : ExceptT ε (StateM State) α}
    {Q : α → State → Prop} (h : Leads R (On fun _ => True) x Q) : Leads R (fun _ => True) x Q :=
  h.pre fun _ _ _ _ => trivial

/-- What holds at the start and lasts along the relation still holds after the first part. -/
theorem bindKeeping [IsTrans Tables E] {x : ExceptT ε (StateM State) α}
    {f : α → ExceptT ε (StateM State) β} {S : β → State → Prop}
    (hx : Leads (Edits E) (On P) x fun a => On (Q a))
    (hlasts : ∀ t t', E t t' → P t → P t')
    (hf : ∀ a, Leads (Edits E) (On fun t => Q a t ∧ P t) (f a) S) :
    Leads (Edits E) (On P) (x >>= f) S := by
  refine .bind (S := S) (Q := fun a => On fun t => Q a t ∧ P t) (fun σ hσ => ?_) hf
  obtain ⟨hE, hQ⟩ := hx σ hσ
  exact ⟨hE, fun a ha t ht => ⟨hQ a ha t ht, hE.on hlasts hσ t ht⟩⟩

/-- A write moves the tables the way it says. -/
theorem write [Std.Refl E] {f : Tables → Except Store.Fault (Tables × α)}
    (h : ∀ t t' a, P t → f t = .ok (t', a) → E t t' ∧ Q a t') :
    Leads (Edits E) (On P) (ExceptT.mk (writing (·.write o table f))) fun a => On (Q a) := by
  refine .intro fun σ r τ hσ hrun => ?_
  change (writing (·.write o table f)).run σ = (r, τ) at hrun
  rw [run_writing] at hrun
  cases hwrite : σ.store.write o table f with
  | error e =>
    rw [hwrite] at hrun
    cases hrun
    exact ⟨.aside rfl rfl, fun a ha => nomatch ha⟩
  | ok w =>
    obtain ⟨s', a⟩ := w
    rw [hwrite] at hrun
    cases hrun
    obtain ⟨-, t, t', ht, hf, rfl⟩ := Store.write_ok.mp hwrite
    obtain ⟨hE, hQ⟩ := h t t' a (hσ t ht) hf
    refine ⟨⟨rfl, rfl, ht ▸ .some hE⟩, fun b hb u hu => ?_⟩
    cases hb
    cases hu
    exact hQ

/-- So does a write without an answer. -/
theorem update [Std.Refl E] {f : Tables → Except Store.Fault Tables} {R : Tables → Prop}
    (h : ∀ t t', P t → f t = .ok t' → E t t' ∧ R t') :
    Leads (Edits E) (On P) (ExceptT.mk (updating (·.update o table f))) fun _ => On R := by
  refine .intro fun σ r τ hσ hrun => ?_
  change (updating (·.update o table f)).run σ = (r, τ) at hrun
  rw [run_updating] at hrun
  cases hupdate : σ.store.update o table f with
  | error e =>
    rw [hupdate] at hrun
    cases hrun
    exact ⟨.aside rfl rfl, fun a ha => nomatch ha⟩
  | ok s' =>
    rw [hupdate] at hrun
    cases hrun
    obtain ⟨-, t, t', ht, hf, rfl⟩ := Store.update_ok.mp hupdate
    obtain ⟨hE, hR⟩ := h t t' (hσ t ht) hf
    refine ⟨⟨rfl, rfl, ht ▸ .some hE⟩, fun _ _ u hu => ?_⟩
    cases hu
    exact hR

theorem reading [Std.Refl E] (f : Store → Except Store.Fault β) :
    Leads (Edits E) (On P) (ExceptT.mk (Sync.reading f)) fun _ => On P :=
  fun _ hσ => ⟨.aside rfl rfl, fun _ _ => hσ⟩

theorem asking [Std.Refl E] (c : Remote.Call β) :
    Leads (Edits E) (On P) (ExceptT.mk (Sync.asking c)) fun _ => On P :=
  fun _ hσ => ⟨.aside rfl rfl, fun _ _ => hσ⟩

/-- A question that is put to the remote side does not touch the tables, whatever the answer. -/
theorem answered [Std.Refl E] (c : Remote.Call β) :
    Leads (Edits E) (On P) (liftM (Sync.asking c) : ExceptT ε (StateM State) _) fun _ => On P :=
  .lift fun _ hσ => ⟨.aside rfl rfl, hσ⟩

theorem logging [Std.Refl E] (severity : Severity) (messages : List Text) :
    Leads (Edits E) (On P) (liftM (Sync.logging severity messages) : ExceptT ε (StateM State) _)
      fun _ => On P :=
  .lift fun _ hσ => ⟨.aside rfl rfl, hσ⟩

theorem orFail {x : StateM State (Except ε α)} (failure : ε → Failure)
    {R : State → State → Prop} {P : State → Prop} {Q : α → State → Prop}
    (h : Leads R P (ExceptT.mk x) Q) : Leads R P (Sync.orFail failure x) Q := by
  refine .intro fun σ r τ hσ hrun => ?_
  rw [run_orFail] at hrun
  rcases hx : x.run σ with ⟨e | a, υ⟩
  · rw [hx] at hrun
    cases hrun
    exact ⟨(h.of_run hσ hx).1, fun b hb => nomatch hb⟩
  · rw [hx] at hrun
    cases hrun
    obtain ⟨hR, hQ⟩ := h.of_run hσ hx
    refine ⟨hR, fun b hb => ?_⟩
    cases hb
    exact hQ a rfl

/-- After a write that may be refused, what holds of its answer holds if there is one. -/
theorem orWarn {x : StateM State (Except Store.Fault α)} (about : Text) [IsPreorder Tables E]
    (h : Leads (Edits E) (On P) (ExceptT.mk x) fun a => On (Q a)) :
    Leads (Edits E) (On P) (Sync.orWarn about x)
      fun a? => On fun t => ∀ a, a? = some a → Q a t := by
  refine .intro fun σ r τ hσ hrun => ?_
  rw [run_orWarn] at hrun
  rcases hx : x.run σ with ⟨f | a, υ⟩
  · have hE := (h.of_run hσ hx).1
    rw [hx] at hrun
    dsimp only at hrun
    split at hrun
    · cases hrun
      refine ⟨IsTrans.trans _ _ _ hE (.aside rfl rfl), fun b hb t _ a ha => ?_⟩
      cases hb
      exact nomatch ha
    · cases hrun
      exact ⟨hE, fun b hb => nomatch hb⟩
  · obtain ⟨hE, hQ⟩ := h.of_run hσ hx
    rw [hx] at hrun
    cases hrun
    refine ⟨hE, fun b hb t ht c hc => ?_⟩
    cases hb
    cases hc
    exact hQ a rfl t ht

theorem softly {x : Sync.Step α} (about : Text) [IsPreorder Tables E] {P : State → Prop}
    {Q : α → State → Prop} (h : Leads (Edits E) P x Q) :
    Leads (Edits E) P (liftM (Sync.softly about x) : Sync.Step Unit) fun _ _ => True := by
  refine .lift fun σ hσ => ⟨?_, trivial⟩
  rw [run_softly]
  rcases hrun : x.run.run σ with ⟨f | a, τ⟩
  · exact IsTrans.trans _ _ _ (h.of_run hσ hrun).1 (.aside rfl rfl)
  · exact (h.of_run hσ hrun).1

end Leads

end ProviderCatalog
