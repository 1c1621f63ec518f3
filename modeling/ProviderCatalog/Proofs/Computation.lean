import ProviderCatalog.Sync.Run
import Mathlib.Data.List.Forall2
import Mathlib.Order.Defs.Unbundled

/-!
# Runs of computations that may fail

A computation that may fail keeps what it did to the state before it failed. Its run is an equation:
the run of a sequence is the run of the first part, followed by the run of the rest if the first
part came to an end. Statements about a computation are put together along these equations.

## Main definitions

* `Agree`: results that agree up to a relation.
* `Leads`: from where a computation may start, along which relation it moves the state, and what
  holds when it comes to an end.

## Main results

* `run_bind`, `run_lift`: the run of a sequence, and of a computation that cannot fail.
* `Agree.seq`, `Agree.mapM`: sequences agree if their parts do.
* `Leads.bind`: a sequence moves along a relation if its parts do.
-/

namespace ProviderCatalog

variable {α β ε σ : Type}

/-! ### Runs -/

/-- A computation that cannot fail runs its parts one after the other. -/
theorem stateRun_bind (x : StateM σ α) (f : α → StateM σ β) (s : σ) :
    (x >>= f).run s = (f (x.run s).1).run (x.run s).2 := rfl

theorem stateRun_get (s : σ) : (get : StateM σ σ).run s = (s, s) := rfl

theorem stateRun_modify (f : σ → σ) (s : σ) :
    (modify f : StateM σ PUnit).run s = (⟨⟩, f s) := rfl

@[simp] theorem run_pure (a : α) (s : σ) :
    (pure a : ExceptT ε (StateM σ) α).run.run s = (.ok a, s) := rfl

@[simp] theorem run_lift (x : StateM σ α) (s : σ) :
    (liftM x : ExceptT ε (StateM σ) α).run.run s = (.ok (x.run s).1, (x.run s).2) := rfl

@[simp] theorem run_get (s : σ) : (get : ExceptT ε (StateM σ) σ).run.run s = (.ok s, s) := rfl

@[simp] theorem run_modify (f : σ → σ) (s : σ) :
    (modify f : ExceptT ε (StateM σ) PUnit).run.run s = (.ok ⟨⟩, f s) := rfl

/-- A sequence stops where its first part fails. -/
theorem run_bind (x : ExceptT ε (StateM σ) α) (f : α → ExceptT ε (StateM σ) β) (s : σ) :
    (x >>= f).run.run s = match x.run.run s with
      | (.ok a, t) => (f a).run.run t
      | (.error e, t) => (.error e, t) := by
  change (match x s with | (a, t) => ExceptT.bindCont f a t) = _
  rcases h : x s with ⟨_ | a, t⟩
  · simp only [ExceptT.run, StateT.run, h]
    rfl
  · simp only [ExceptT.run, StateT.run, h]
    rfl

theorem run_bind_ok {x : ExceptT ε (StateM σ) α} {s t : σ} {a : α}
    (h : x.run.run s = (.ok a, t)) (f : α → ExceptT ε (StateM σ) β) :
    (x >>= f).run.run s = (f a).run.run t := by
  rw [run_bind, h]

theorem run_bind_error {x : ExceptT ε (StateM σ) α} {s t : σ} {e : ε}
    (h : x.run.run s = (.error e, t)) (f : α → ExceptT ε (StateM σ) β) :
    (x >>= f).run.run s = (.error e, t) := by
  rw [run_bind, h]

theorem except_ok_bind (a : α) (f : α → Except ε β) : (Except.ok a >>= f) = f a := rfl

theorem except_error_bind (e : ε) (f : α → Except ε β) : (Except.error e >>= f) = .error e := rfl

/-- A sequence of two results that is there is one whose parts are there. -/
theorem except_bind_eq_ok {x : Except ε α} {f : α → Except ε β} {b : β} :
    (x >>= f) = .ok b ↔ ∃ a, x = .ok a ∧ f a = .ok b := by
  cases x with
  | error e => exact ⟨fun h => (nomatch h), fun ⟨_, h, _⟩ => (nomatch h)⟩
  | ok a => exact ⟨fun h => ⟨a, rfl, h⟩, fun ⟨_, ha, h⟩ => Except.ok.inj ha ▸ h⟩

/-- A sequence of two results fails in its first part or in its second one. -/
theorem except_bind_eq_error {x : Except ε α} {f : α → Except ε β} {e : ε} :
    (x >>= f) = .error e ↔ x = .error e ∨ ∃ a, x = .ok a ∧ f a = .error e := by
  cases x with
  | error e' =>
    exact ⟨fun h => .inl (congrArg _ (Except.error.inj h)), fun h => h.elim
      (fun h => congrArg _ (Except.error.inj h)) fun ⟨_, h, _⟩ => nomatch h⟩
  | ok a =>
    exact ⟨fun h => .inr ⟨a, rfl, h⟩, fun h => h.elim (fun h => nomatch h)
      fun ⟨_, ha, h⟩ => Except.ok.inj ha ▸ h⟩

/-- Each of several results that are there is the result of one of the inputs. -/
theorem exists_of_mem_mapM {f : α → Except ε β} {as : List α} {bs : List β}
    (h : as.mapM f = .ok bs) {b : β} (hb : b ∈ bs) : ∃ a ∈ as, f a = .ok b := by
  induction as generalizing bs with
  | nil =>
    cases h
    exact nomatch hb
  | cons a as ih =>
    rw [List.mapM_cons] at h
    obtain ⟨x, hx, h⟩ := except_bind_eq_ok.mp h
    obtain ⟨xs, hxs, h⟩ := except_bind_eq_ok.mp h
    cases h
    rcases List.mem_cons.mp hb with rfl | hb
    · exact ⟨a, List.mem_cons_self, hx⟩
    · obtain ⟨a', ha', hfa⟩ := ih hxs hb
      exact ⟨a', List.mem_cons_of_mem a ha', hfa⟩

theorem except_map_eq_ok {x : Except ε α} {f : α → β} {b : β} :
    x.map f = .ok b ↔ ∃ a, x = .ok a ∧ f a = b := by
  cases x with
  | error e => exact ⟨fun h => (nomatch h), fun ⟨_, h, _⟩ => (nomatch h)⟩
  | ok a =>
    exact ⟨fun h => ⟨a, rfl, Except.ok.inj h⟩, fun ⟨_, ha, h⟩ => Except.ok.inj ha ▸ congrArg _ h⟩

theorem except_map_eq_error {x : Except ε α} {f : α → β} {e : ε} :
    x.map f = .error e ↔ x = .error e := by
  cases x with
  | ok a => constructor <;> rintro ⟨⟩
  | error e' => exact ⟨fun h => congrArg _ (Except.error.inj h), fun h => h ▸ rfl⟩

theorem eq_ok_of_toOption {x : Except ε α} {a : α} (h : x.toOption = some a) : x = .ok a := by
  cases x with
  | error e => exact nomatch h
  | ok b => exact congrArg Except.ok (Option.some.inj h)

/-- Results that agree: both are there and in a relation, or they are the same fault. -/
inductive Agree (Q : α → β → Prop) : Except ε α → Except ε β → Prop
  | ok {a b} (h : Q a b) : Agree Q (.ok a) (.ok b)
  | error (e) : Agree Q (.error e) (.error e)

namespace Agree

variable {γ δ : Type} {R : α → β → Prop} {S : γ → δ → Prop} {x : Except ε α} {y : Except ε β}

/-- Sequences agree whose first parts agree, and whose rests agree on what is related. -/
theorem seq {f : α → Except ε γ} {g : β → Except ε δ} (h : Agree R x y)
    (hfg : ∀ a b, R a b → Agree S (f a) (g b)) : Agree S (x >>= f) (y >>= g) := by
  cases h with
  | ok h => exact hfg _ _ h
  | error e => exact .error e

theorem cases (h : Agree R x y) :
    (∃ a b, x = .ok a ∧ y = .ok b ∧ R a b) ∨ ∃ e, x = .error e ∧ y = .error e := by
  cases h with
  | ok h => exact .inl ⟨_, _, rfl, rfl, h⟩
  | error e => exact .inr ⟨e, rfl, rfl⟩

theorem imp {R' : α → β → Prop} (h : Agree R x y) (himp : ∀ a b, R a b → R' a b) :
    Agree R' x y := by
  cases h with
  | ok h => exact .ok (himp _ _ h)
  | error e => exact .error e

theorem map {f : α → γ} {g : β → δ} (h : Agree R x y) (hfg : ∀ a b, R a b → S (f a) (g b)) :
    Agree S (x.map f) (y.map g) := by
  cases h with
  | ok h => exact .ok (hfg _ _ h)
  | error e => exact .error e

theorem mapError {ε' : Type} (f : ε → ε') (h : Agree R x y) :
    Agree R (x.mapError f) (y.mapError f) := by
  cases h with
  | ok h => exact .ok h
  | error e => exact .error _

theorem of_map_eq {f : α → γ} {g : β → γ} (h : x.map f = y.map g) :
    Agree (fun a b => f a = g b) x y := by
  cases x with
  | error e =>
    cases y with
    | error e' =>
      cases h
      exact .error e
    | ok b => exact nomatch h
  | ok a =>
    cases y with
    | error e' => exact nomatch h
    | ok b => exact .ok (Except.ok.inj h)

theorem mapM {f : α → Except ε γ} {g : β → Except ε δ} {as : List α} {bs : List β}
    (h : List.Forall₂ R as bs) (hfg : ∀ a b, R a b → Agree S (f a) (g b)) :
    Agree (List.Forall₂ S) (as.mapM f) (bs.mapM g) := by
  induction h with
  | nil => exact .ok .nil
  | cons hab _ ih =>
    rw [List.mapM_cons, List.mapM_cons]
    exact (hfg _ _ hab).seq fun _ _ hcd => ih.seq fun _ _ hrest => .ok (.cons hcd hrest)

protected theorem refl (x : Except ε α) : Agree Eq x x := by
  cases x with
  | ok a => exact .ok rfl
  | error e => exact .error e

protected theorem eq {x y : Except ε α} (h : Agree Eq x y) : x = y := by
  cases h with
  | ok h => rw [h]
  | error e => rfl

end Agree

/-! ### Moving along a relation -/

/-- From every state with `P`, the computation moves the state along `R`, and if it does not fail
then `Q` holds of its result and of the state it ends in. -/
def Leads (R : σ → σ → Prop) (P : σ → Prop) (x : ExceptT ε (StateM σ) α) (Q : α → σ → Prop) :
    Prop :=
  ∀ s, P s → R s (x.run.run s).2 ∧ ∀ a, (x.run.run s).1 = .ok a → Q a (x.run.run s).2

namespace Leads

variable {R R' : σ → σ → Prop} {P P' : σ → Prop} {Q Q' : α → σ → Prop} {S : β → σ → Prop}
  {x : ExceptT ε (StateM σ) α} {f : α → ExceptT ε (StateM σ) β}

theorem of_run (h : Leads R P x Q) {s t : σ} {r : Except ε α} (hP : P s)
    (hx : x.run.run s = (r, t)) : R s t ∧ ∀ a, r = .ok a → Q a t := by
  simpa only [hx] using h s hP

theorem intro
    (h : ∀ s r t, P s → x.run.run s = (r, t) → R s t ∧ ∀ a, r = .ok a → Q a t) : Leads R P x Q :=
  fun s hP => h s _ _ hP rfl

protected theorem pure [Std.Refl R] {a : α} (h : ∀ s, P s → Q a s) :
    Leads R P (pure a : ExceptT ε (StateM σ) α) Q := by
  intro s hP
  refine ⟨Std.Refl.refl s, fun b hb => ?_⟩
  cases hb
  exact h s hP

protected theorem throw [Std.Refl R] (e : ε) :
    Leads R P (throw e : ExceptT ε (StateM σ) α) Q := by
  intro s _
  exact ⟨Std.Refl.refl s, fun b hb => nomatch hb⟩

/-- What holds after the first part is what the rest starts from. -/
protected theorem bind [IsTrans σ R] (hx : Leads R P x Q) (hf : ∀ a, Leads R (Q a) (f a) S) :
    Leads R P (x >>= f) S := by
  intro s hP
  rcases hrun : x.run.run s with ⟨e | a, t⟩
  · rw [run_bind_error hrun]
    exact ⟨(hx.of_run hP hrun).1, fun b hb => nomatch hb⟩
  · rw [run_bind_ok hrun]
    obtain ⟨hst, hQ⟩ := hx.of_run hP hrun
    obtain ⟨htu, hS⟩ := hf a t (hQ a rfl)
    exact ⟨IsTrans.trans _ _ _ hst htu, hS⟩

theorem lift {y : StateM σ α} (h : ∀ s, P s → R s (y.run s).2 ∧ Q (y.run s).1 (y.run s).2) :
    Leads R P (liftM y : ExceptT ε (StateM σ) α) Q := by
  intro s hP
  refine ⟨(h s hP).1, fun a ha => ?_⟩
  cases ha
  exact (h s hP).2

theorem mono (h : Leads R P x Q) (hR : ∀ s t, R s t → R' s t) (hP : ∀ s, P' s → P s)
    (hQ : ∀ a s, Q a s → Q' a s) : Leads R' P' x Q' := by
  intro s hs
  obtain ⟨hR', hQ'⟩ := h s (hP s hs)
  exact ⟨hR _ _ hR', fun a ha => hQ _ _ (hQ' a ha)⟩

theorem post (h : Leads R P x Q) (hQ : ∀ a s, Q a s → Q' a s) : Leads R P x Q' :=
  h.mono (fun _ _ h => h) (fun _ h => h) hQ

theorem pre (h : Leads R P x Q) (hP : ∀ s, P' s → P s) : Leads R P' x Q :=
  h.mono (fun _ _ h => h) hP fun _ _ h => h

end Leads

end ProviderCatalog
