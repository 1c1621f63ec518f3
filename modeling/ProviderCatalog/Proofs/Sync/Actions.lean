import ProviderCatalog.Sync.Run
import ProviderCatalog.Proofs.Store.Operations

/-!
# Runs of the elementary actions

The actions that steps are made of have runs that can be written down: a write either fails and
leaves the state, or replaces the tables; a step that passes over a refusal adds a warning. Steps
that store rows one after the other pass over a row with a warning when its operation is out of
order. A row with a value that fits into no column is not passed over: it fails the step, and the
rows after it are not attempted.

## Main definitions

* `Attempts`: what a step that stores rows leads to, if the rows fit and if they do not.
* `Attempted`: what became of a single row.
* `refusals`: the warnings about rows that are passed over.

## Main results

* `run_asking`, `run_reading`, `run_writing`, `run_updating`: the elementary actions.
* `run_orFail`, `run_orWarn`, `run_softly`: what becomes of an action that may fail.
* `run_orFail_write`, `run_orFail_update`: writes while the store is in order.
* `Attempts.bind`, `Attempts.cons`: attempts one after the other.
* `write_attempts`, `update_attempts`: attempts to store a single row.
-/

namespace ProviderCatalog

variable {α β ε : Type}

namespace Sync

variable {σ : State}

theorem run_asking (c : Remote.Call α) (σ : State) :
    (asking c).run σ = ((c.run.run σ.session).1, { σ with session := (c.run.run σ.session).2 }) :=
  rfl

theorem run_reading (f : Store → Except Store.Fault α) (σ : State) :
    (reading f).run σ = (f σ.store, σ) := rfl

theorem run_writing (f : Store → Except Store.Fault (Store × α)) (σ : State) :
    (writing f).run σ = match f σ.store with
      | .ok (store, a) => (.ok a, { σ with store })
      | .error e => (.error e, σ) := rfl

theorem run_updating (f : Store → Except Store.Fault Store) (σ : State) :
    (updating f).run σ = match f σ.store with
      | .ok store => (.ok (), { σ with store })
      | .error e => (.error e, σ) := by
  rw [updating, run_writing]
  cases f σ.store <;> rfl

theorem run_orFail (failure : ε → Failure) (x : StateM State (Except ε α)) (σ : State) :
    (orFail failure x).run.run σ = match x.run σ with
      | (.ok a, τ) => (.ok a, τ)
      | (.error e, τ) => (.error (failure e), τ) := by
  rw [orFail, run_bind, run_lift]
  rcases x.run σ with ⟨_ | _, τ⟩ <;> rfl

/-- A refusal is passed over with a warning, every other fault fails the step. -/
theorem run_orWarn (about : Text) (x : StateM State (Except Store.Fault α)) (σ : State) :
    (orWarn about x).run.run σ = match x.run σ with
      | (.ok a, τ) => (.ok (some a), τ)
      | (.error f, τ) =>
        if f.isRefusal then (.ok none, ((warn (about ++ ": " ++ f.message)).run τ).2)
        else (.error (.store f), τ) := by
  rw [orWarn, run_bind, run_lift]
  rcases x.run σ with ⟨f | a, τ⟩
  · dsimp only
    split <;> rfl
  · rfl

theorem run_softly (about : Text) (x : Step α) (σ : State) :
    (softly about x).run σ = match x.run.run σ with
      | (.ok _, τ) => ((), τ)
      | (.error f, τ) => (warn (about ++ ": " ++ f.message)).run τ := by
  rw [softly, stateRun_bind]
  rcases x.run.run σ with ⟨_ | _, τ⟩ <;> rfl

/-! ### Writes in order -/

section InOrder

open Store (Operation Tables)

variable {o : Operation} {table : String} {t : Tables}

/-- The state with other tables. -/
def State.withTables (σ : State) (t : Tables) : State :=
  { σ with store := { σ.store with tables := some t } }

theorem withTables_of_eq (ht : σ.store.tables = some t) : σ.withTables t = σ := by
  rw [State.withTables, ← ht]

theorem run_orFail_write (failure : Store.Fault → Failure)
    {f : Tables → Except Store.Fault (Tables × α)}
    (horder : σ.store.outOfOrder.contains o = false) (ht : σ.store.tables = some t) :
    (orFail failure (writing (·.write o table f))).run.run σ = match f t with
      | .ok (u, a) => (.ok a, σ.withTables u)
      | .error e => (.error (failure e), σ) := by
  rw [run_orFail, run_writing, Store.write_inOrder horder ht]
  cases f t <;> rfl

theorem run_orFail_update (failure : Store.Fault → Failure)
    {f : Tables → Except Store.Fault Tables}
    (horder : σ.store.outOfOrder.contains o = false) (ht : σ.store.tables = some t) :
    (orFail failure (updating (·.update o table f))).run.run σ = match f t with
      | .ok u => (.ok (), σ.withTables u)
      | .error e => (.error (failure e), σ) := by
  rw [run_orFail, run_updating, Store.update_inOrder horder ht]
  cases f t <;> rfl

end InOrder

end Sync

end ProviderCatalog

namespace ProviderCatalog.Sync

open Store (Operation Tables)

variable {α β : Type} {σ : State} {t : Tables}

/-! ### Attempts -/

/-- The state with other tables and with more lines in the log. -/
def State.carried (σ : State) (t : Tables) (lines : List LogLine) : State :=
  { σ.withTables t with log := σ.log ++ lines }

theorem carried_of_eq (ht : σ.store.tables = some t) : σ.carried t [] = σ := by
  rw [State.carried, List.append_nil, withTables_of_eq ht]

theorem carried_carried (σ : State) (t u : Tables) (lines more : List LogLine) :
    (σ.carried t lines).carried u more = σ.carried u (lines ++ more) := by
  simp [State.carried, State.withTables, List.append_assoc]

/-- The lines of warnings. -/
def warningLines (messages : List Text) : List LogLine := messages.map (⟨.warning, ·⟩)

/-- A step that stores rows: if they fit, it ends with a result, tables and lines of the log of
which `Q` holds; if they do not, it fails with a fault that is no refusal. -/
structure Attempts (x : Step α) (σ : State) (fits : Prop)
    (Q : α → Tables → List LogLine → Prop) : Prop where
  stores : fits → ∃ a t lines, x.run.run σ = (.ok a, σ.carried t lines) ∧ Q a t lines
  fails : ¬fits → ∃ f τ, x.run.run σ = (.error (.store f), τ) ∧ f.isRefusal = false

namespace Attempts

variable {x : Step α} {f : α → Step β} {p q : Prop} {Q R : α → Tables → List LogLine → Prop}
  {S : β → Tables → List LogLine → Prop}

protected theorem pure {a : α} (ht : σ.store.tables = some t) (hp : p) (hQ : Q a t []) :
    Attempts (pure a : Step α) σ p Q where
  stores _ := ⟨a, t, [], by rw [carried_of_eq ht]; rfl, hQ⟩
  fails hnot := absurd hp hnot

/-- Attempts one after the other succeed if all rows fit. -/
protected theorem bind (hx : Attempts x σ p Q)
    (hf : ∀ a t lines, Q a t lines →
      Attempts (f a) (σ.carried t lines) q fun b u more => S b u (lines ++ more)) :
    Attempts (x >>= f) σ (p ∧ q) S where
  stores := by
    rintro ⟨hp, hq⟩
    obtain ⟨a, t, lines, hrun, hQ⟩ := hx.stores hp
    obtain ⟨b, u, more, hruns, hS⟩ := (hf a t lines hQ).stores hq
    exact ⟨b, u, lines ++ more, by rw [run_bind_ok hrun, hruns, carried_carried], hS⟩
  fails hnot := by
    by_cases hp : p
    · obtain ⟨a, t, lines, hrun, hQ⟩ := hx.stores hp
      obtain ⟨e, τ, hruns, he⟩ := (hf a t lines hQ).fails fun hq => hnot ⟨hp, hq⟩
      exact ⟨e, τ, by rw [run_bind_ok hrun, hruns], he⟩
    · obtain ⟨e, τ, hrun, he⟩ := hx.fails hp
      exact ⟨e, τ, by rw [run_bind_error hrun], he⟩

theorem mono (h : Attempts x σ p Q) (hfits : p ↔ q)
    (hQ : ∀ a t lines, Q a t lines → R a t lines) : Attempts x σ q R where
  stores hq := by
    obtain ⟨a, t, lines, hrun, h⟩ := h.stores (hfits.mpr hq)
    exact ⟨a, t, lines, hrun, hQ a t lines h⟩
  fails hnot := h.fails fun hp => hnot (hfits.mp hp)

/-- A step attempts what a step with the same run attempts. -/
theorem of_run {y : Step α} (h : x.run.run σ = y.run.run σ) (hy : Attempts y σ p Q) :
    Attempts x σ p Q where
  stores := h ▸ hy.stores
  fails := h ▸ hy.fails

/-- Attempts after lines were added to the log. -/
theorem logged {y : Step β} {messages : List Text} (ht : σ.store.tables = some t)
    (hy : Attempts y (σ.carried t (warningLines messages)) p fun b u more =>
      S b u (warningLines messages ++ more)) :
    Attempts (do (logging .warning messages : StateM State Unit); y) σ p S := by
  have hlog : Attempts (logging .warning messages : StateM State Unit) σ True fun _ u lines =>
      u = t ∧ lines = warningLines messages := by
    refine ⟨fun _ => ⟨(), t, _, ?_, rfl, rfl⟩, fun hnot => absurd trivial hnot⟩
    rw [State.carried, withTables_of_eq ht]
    rfl
  refine (hlog.bind (q := p) fun _ u lines h => ?_).mono ⟨And.right, .intro trivial⟩
    fun _ _ _ hS => hS
  obtain ⟨rfl, rfl⟩ := h
  exact hy

/-- Attempts before a result is given. -/
theorem returning (hx : Attempts x σ p Q) (b : β) :
    Attempts (do let _ ← x; return b) σ p fun b' t lines => b' = b ∧ ∃ a, Q a t lines := by
  refine (hx.bind (q := True) fun a t lines hQ => .pure rfl trivial ⟨rfl, a, ?_⟩).mono
    ⟨And.left, fun hp => ⟨hp, trivial⟩⟩ fun _ _ _ hS => hS
  rwa [List.append_nil]

/-- Attempts at the head of a list and at the rest of it succeed if all members of the list fit. -/
theorem cons {γ : Type} {fits : γ → Prop} {c : γ} {cs : List γ} (hx : Attempts x σ (p → fits c) Q)
    (hf : ∀ a t lines, Q a t lines → Attempts (f a) (σ.carried t lines) (p → ∀ d ∈ cs, fits d)
      fun b u more => S b u (lines ++ more)) :
    Attempts (x >>= f) σ (p → ∀ d ∈ c :: cs, fits d) S := by
  simp only [List.forall_mem_cons]
  exact (hx.bind hf).mono forall_and.symm fun _ _ _ hS => hS

end Attempts

/-- The warning about a row that is refused because an operation is out of order. -/
def refusal (about : Text) : LogLine :=
  ⟨.warning, about ++ ": " ++ Store.Refusal.outOfOrder.message⟩

/-- The warnings about rows that are refused if an operation is out of order. -/
def refusals (refused : List Operation) (o : Operation) (abouts : List Text) : List LogLine :=
  if refused.contains o then abouts.map refusal else []

theorem refusals_nil (refused : List Operation) (o : Operation) : refusals refused o [] = [] := by
  simp [refusals]

theorem refusals_cons (refused : List Operation) (o : Operation) (about : Text)
    (abouts : List Text) :
    refusals refused o (about :: abouts) =
      refusals refused o [about] ++ refusals refused o abouts := by
  unfold refusals
  split <;> rfl

/-- What became of a row: it was refused, or stored with the result that `S` says. -/
structure Attempted (refused : List Operation) (o : Operation) (about : Text) (t : Tables)
    (S : α → Tables → Prop) (a? : Option α) (u : Tables) (lines : List LogLine) : Prop where
  lines : lines = refusals refused o [about]
  outcome : (refused.contains o = true ∧ a? = none ∧ u = t) ∨
    (refused.contains o = false ∧ ∃ a, a? = some a ∧ S a u)

/-- Attempts to store a row. -/
theorem write_attempts {o : Operation} {table : String}
    {f : Tables → Except Store.Fault (Tables × α)} {fits : Prop} {S : α → Tables → Prop}
    (about : Text) (ht : σ.store.tables = some t)
    (hstores : fits → ∃ u a, f t = .ok (u, a) ∧ S a u)
    (hfails : ¬fits → ∃ e, f t = .error e ∧ e.isRefusal = false) :
    Attempts (orWarn about (writing (·.write o table f))) σ
      (σ.store.outOfOrder.contains o = false → fits)
      (Attempted σ.store.outOfOrder o about t S) := by
  cases horder : σ.store.outOfOrder.contains o with
  | true =>
    refine ⟨fun _ => ?_, fun hnot => absurd (fun h => nomatch h) hnot⟩
    have hwrite : σ.store.write o table f = .error (.refused .outOfOrder) :=
      Store.write_outOfOrder f horder
    refine ⟨none, t, [refusal about], ?_, by rw [refusals, horder]; rfl, .inl ⟨horder, rfl, rfl⟩⟩
    rw [run_orWarn, run_writing, hwrite, State.carried, withTables_of_eq ht]
    rfl
  | false =>
    have hwrite : σ.store.write o table f = _ := Store.write_inOrder horder ht
    refine ⟨fun hfits => ?_, fun hnot => ?_⟩
    · obtain ⟨u, a, hf, hS⟩ := hstores (hfits rfl)
      refine ⟨some a, u, [], ?_, by rw [refusals, horder]; rfl, .inr ⟨horder, a, rfl, hS⟩⟩
      rw [run_orWarn, run_writing, hwrite, hf, State.carried, List.append_nil]
      rfl
    · obtain ⟨e, hf, he⟩ := hfails fun hfits => hnot fun _ => hfits
      refine ⟨e, σ, ?_, he⟩
      rw [run_orWarn, run_writing, hwrite, hf]
      simp [Except.map, he]

/-- Attempts to store a row whose number is not told. -/
theorem update_attempts {o : Operation} {table : String} {f : Tables → Except Store.Fault Tables}
    {fits : Prop} {S : Tables → Prop} (about : Text) (ht : σ.store.tables = some t)
    (hstores : fits → ∃ u, f t = .ok u ∧ S u)
    (hfails : ¬fits → ∃ e, f t = .error e ∧ e.isRefusal = false) :
    Attempts (orWarn about (updating (·.update o table f))) σ
      (σ.store.outOfOrder.contains o = false → fits)
      (Attempted σ.store.outOfOrder o about t fun _ => S) := by
  have hupdating : updating (·.update o table f) =
      writing (·.write o table fun t => return (← f t, ())) := by
    funext s
    rw [updating, writing, writing, Store.update]
    cases s.store.write o table fun t => return (← f t, ()) <;> rfl
  rw [hupdating]
  refine write_attempts about ht (fun hfits => ?_) (fun hnot => ?_)
  · obtain ⟨u, hf, hS⟩ := hstores hfits
    exact ⟨u, (), by rw [hf]; rfl, hS⟩
  · obtain ⟨e, hf, he⟩ := hfails hnot
    exact ⟨e, by rw [hf]; rfl, he⟩

end ProviderCatalog.Sync
