import ProviderCatalog.Proofs.Store.Emptying
import ProviderCatalog.Proofs.Sync.Filling

/-!
# The effect of a sync on the tables

A sync that gets to store the record of its repository does everything else under the number of the
record: it may clear what is there, store the record once more with the readme text, and fill the
tables. Only the sync of a repository without an archive removes the record again. A sync that does
not get there changes nothing.

## Main definitions

* `Recordable`: the record of a repository can be stored.
* `Work`, `Works`: what a sync does once the record is stored.
* `Synced`: the tables before and after the steps of a sync, by their result.
* `afterRecord`: what a sync does once its record is stored.

## Main results

* `syncSteps_synced`: the steps of a sync do no more than that, whatever the remote side answers.
* `syncRepository_held`, `syncRepository_free`: a sync gives its lock back and tells how its steps
  ended.
-/

namespace ProviderCatalog.Sync

open ProviderCatalog.Configuration (RepositorySource)
open Relation (ReflTransGen)
open Store (Operation Param Tables)
open Store.Tables (Fill Filled)

/-- The record of a repository can be stored: the operations on it are in order, and its values fit
into their columns. -/
structure Recordable (s : Remote.Summary) (outOfOrder : List Operation) : Prop where
  reading : outOfOrder.contains .repository = false
  writing : outOfOrder.contains .insertRepository = false
  fits : Param.bind (Param.ofRepository (.ofSummary s none)) = .ok ()

/-- What a sync does under the number of the record that it stored. -/
inductive Work (s : Remote.Summary) (id : Int) : Tables → Tables → Prop
  | clear {t t'} (h : t.clearRepository id = .ok t') : Work s id t t'
  | readme {t t'} {text : Text}
      (h : t.putRepository (.ofSummary s (some text)) = .ok (t', id)) : Work s id t t'
  | fill {t t'} (h : Fill id t t') : Work s id t t'

/-- Any amount of such work. -/
abbrev Works (s : Remote.Summary) (id : Int) : Tables → Tables → Prop := ReflTransGen (Work s id)

/-- The tables before and after the steps of a sync with a result. -/
inductive Synced (s : Remote.Summary) (outOfOrder : List Operation) (t : Tables) :
    Except Failure Bool → Tables → Prop
  | unrecorded {f} (h : ¬Recordable s outOfOrder) : Synced s outOfOrder t (.error f) t
  | recorded {result u v id} (hput : t.putRepository (.ofSummary s none) = .ok (u, id))
      (hworks : Works s id u v) (hresult : result ≠ .ok false) : Synced s outOfOrder t result v
  | dropped {u v w id} (hput : t.putRepository (.ofSummary s none) = .ok (u, id))
      (hworks : Works s id u v) (hdelete : v.deleteRepository id = .ok w) :
      Synced s outOfOrder t (.ok false) w
  | kept {u v id} (hput : t.putRepository (.ofSummary s none) = .ok (u, id))
      (hworks : Works s id u v) (horder : outOfOrder.contains .deleteRepository = true) :
      Synced s outOfOrder t (.ok false) v

/-- The steps of a sync gave a result that fits what they did to the tables, and left the locks and
the order of the store. -/
structure Ended (s : Remote.Summary) (σ : State) (t : Tables) (run : Except Failure Bool × State) :
    Prop where
  locks : run.2.locks = σ.locks
  outOfOrder : run.2.store.outOfOrder = σ.store.outOfOrder
  tables : ∃ t', run.2.store.tables = some t' ∧ Synced s σ.store.outOfOrder t run.1 t'

variable {s : Remote.Summary} {id : Int} {t t' u v : Tables}

/-! ### Under the number of the record -/

theorem Work.numbered (h : Work s id t t') (hnumbered : t.Numbered s.name id) :
    t'.Numbered s.name id := by
  cases h with
  | clear h => exact hnumbered.congr (Tables.repositories_clearRepository h)
  | readme h => exact Tables.numbered_putRepository h
  | fill h => exact hnumbered.congr h.touched.repositories

theorem Works.numbered (h : Works s id t t') (hnumbered : t.Numbered s.name id) :
    t'.Numbered s.name id := by
  induction h with
  | refl => exact hnumbered
  | tail _ h ih => exact h.numbered ih

theorem Works.of_filled (h : Filled id t t') : Works s id t t' :=
  h.lift (fun t => t) fun _ _ => .fill

/-- What fills the tables is such work. -/
theorem fillFrom_works (p : Plan) (remote : Remote) (r : RepositorySource) (data : Bytes) :
    Leads (Edits (Works s id)) (fun _ => True) (fillFrom p remote s r id data)
      fun available _ => available = true :=
  (fillFrom_fills p remote s r data).mono
    (fun _ _ h => ⟨h.locks, h.store.mono fun _ _ => .of_filled⟩) (fun _ h => h) fun _ _ h => h

/-- The readme text is stored in the record that is there, under its number. -/
theorem storeReadme_leads {E : Tables → Tables → Prop} [IsPreorder Tables E] (p : Plan)
    (remote : Remote) (hput : ∀ t t' text, t.Numbered s.name id →
      t.putRepository (.ofSummary s (some text)) = .ok (t', id) → E t t') :
    Leads (Edits E) (On fun t => t.Numbered s.name id) (storeReadme p remote s)
      fun _ _ => True := by
  refine .bind (.orFail _ (.asking _)) fun text => ?_
  refine .bind (.orFail _ (.write (Q := fun _ _ => True) fun t t' n hnumbered h => ?_)) fun _ =>
    .pure fun _ _ => trivial
  have hn : n = id := Tables.Numbered.putRepository hnumbered h
  exact ⟨hput t t' text hnumbered (hn ▸ h), trivial⟩

theorem storeReadme_works (p : Plan) (remote : Remote) :
    Leads (Edits (Works s id)) (On fun t => t.Numbered s.name id) (storeReadme p remote s)
      fun _ _ => True :=
  storeReadme_leads p remote fun _ _ _ _ h => .single (.readme h)

/-! ### The steps of a sync -/

private theorem fits_name (h : Param.bind (Param.ofRepository (.ofSummary s none)) = .ok ()) :
    Param.bind [.text s.name] = .ok () :=
  Param.bind_of_fits (Param.fits_of_bind h List.mem_cons_self) []

/-- A record that can be stored can be looked for. -/
theorem Recordable.reads {store : Store} (h : Recordable s store.outOfOrder)
    (ht : store.tables = some t) :
    store.repository? s.name = .ok ((t.row? s.name).map Store.readRecord) :=
  Store.read_ok.mpr ⟨h.reading, t, ht, except_bind_eq_ok.mpr ⟨(), fits_name h.fits, rfl⟩⟩

theorem Recordable.writes {store : Store} (h : Recordable s store.outOfOrder)
    (ht : store.tables = some t) : ∃ r, store.insertRepository (.ofSummary s none) = .ok r :=
  ⟨(_, _), Store.write_ok.mpr
    ⟨h.writing, t, _, ht, except_bind_eq_ok.mpr ⟨(), h.fits, rfl⟩, rfl⟩⟩

/-- The record is not stored, and nothing else is done; or it is stored, and then at most
cleared. -/
theorem storeRecord_run (s : Remote.Summary) (σ : State) :
    (∃ f, (storeRecord s).run.run σ = (.error f, σ) ∧
        (σ.store.tables ≠ none → ¬Recordable s σ.store.outOfOrder)) ∨
      ∃ t u id, σ.store.tables = some t ∧ t.putRepository (.ofSummary s none) = .ok (u, id) ∧
        ∃ x : Step Int, Leads (Edits (Works s id)) (fun _ => True) x (fun n _ => n = id) ∧
          (storeRecord s).run.run σ =
            x.run.run { σ with store := { σ.store with tables := some u } } := by
  rw [storeRecord, run_bind, run_orFail, run_reading]
  cases hread : σ.store.repository? s.name with
  | error f =>
    refine Or.inl ⟨.store f, rfl, fun htables hrecordable => ?_⟩
    obtain ⟨t, ht⟩ := Option.ne_none_iff_exists'.mp htables
    exact nomatch hread.symm.trans (hrecordable.reads ht)
  | ok prior =>
    dsimp only
    rw [run_bind, run_orFail, run_writing]
    cases hwrite : σ.store.insertRepository (.ofSummary s none) with
    | error f =>
      refine Or.inl ⟨_, rfl, fun htables hrecordable => ?_⟩
      obtain ⟨t, ht⟩ := Option.ne_none_iff_exists'.mp htables
      obtain ⟨r, hr⟩ := hrecordable.writes ht
      exact nomatch hwrite.symm.trans hr
    | ok r =>
      obtain ⟨s', id⟩ := r
      obtain ⟨-, t, u, ht, hput, rfl⟩ := Store.write_ok.mp hwrite
      refine Or.inr ⟨t, u, id, ht, hput, _, ?_, rfl⟩
      split
      · refine .bind (.pre (.orWarn _ (.update (R := fun _ => True) fun t t' _ h =>
          ⟨.single (.clear h), trivial⟩)) fun _ _ _ _ => trivial) fun _ => .pure fun _ _ => rfl
      · exact .pure fun _ _ => rfl

/-- A record that is stored has its number under the name. -/
theorem storeRecord_numbered {σ τ : State} (h : (storeRecord s).run.run σ = (.ok id, τ)) :
    On (fun t => t.Numbered s.name id) τ := by
  rcases storeRecord_run s σ with ⟨f, hfail, -⟩ | ⟨t, u, n, -, hput, x, hx, hclear⟩
  · cases hfail.symm.trans h
  · obtain ⟨hE, hid⟩ := hx.of_run trivial (hclear.symm.trans h)
    obtain rfl : id = n := hid id rfl
    refine hE.on (fun _ _ hworks => hworks.numbered) fun v hv => ?_
    cases hv
    exact Tables.numbered_putRepository hput

/-- A record is removed, unless that is refused or the number of the record is too large. -/
private theorem dropRecord_run {σ : State} (ht : σ.store.tables = some t) (id : Int) :
    let run := (dropRecord s id).run.run σ
    run.2.locks = σ.locks ∧ run.2.store.outOfOrder = σ.store.outOfOrder ∧
      ((∃ t', t.deleteRepository id = .ok t' ∧ run.1 = .ok () ∧ run.2.store.tables = some t') ∨
        run.2.store = σ.store ∧
          (run.1 = .ok () → σ.store.outOfOrder.contains .deleteRepository = true)) := by
  intro run
  have hrun : run = (dropRecord s id).run.run σ := rfl
  rw [dropRecord, run_bind, run_orWarn, run_updating] at hrun
  cases hdelete : σ.store.deleteRepository id with
  | ok s' =>
    rw [hdelete] at hrun
    obtain ⟨-, u, t', hu, hf, rfl⟩ := Store.update_ok.mp hdelete
    cases ht.symm.trans hu
    rw [hrun]
    exact ⟨rfl, rfl, .inl ⟨t', hf, rfl, rfl⟩⟩
  | error f =>
    rw [hdelete] at hrun
    dsimp only at hrun
    by_cases hrefusal : f.isRefusal = true
    · rw [if_pos hrefusal] at hrun
      rw [hrun]
      refine ⟨rfl, rfl, .inr ⟨rfl, fun _ => ?_⟩⟩
      by_contra horder
      have hbind := (Store.update_inOrder (Bool.eq_false_iff.mpr horder) ht).symm.trans hdelete
      cases hfits : Param.bind [.number id] with
      | ok _ =>
        rw [Tables.deleteRepository, hfits] at hbind
        cases hbind
      | error g =>
        rw [Tables.deleteRepository, hfits] at hbind
        cases hbind
        exact Bool.eq_false_iff.mp (Store.bind_error hfits) hrefusal
    · rw [if_neg hrefusal] at hrun
      rw [hrun]
      refine ⟨rfl, rfl, .inr ⟨rfl, fun hok => ?_⟩⟩
      cases hok

/-- What a sync does once its record is stored and its repository is cleared. -/
def afterRecord (p : Plan) (remote : Remote) (s : Remote.Summary) (r : RepositorySource)
    (id : Int) : Step Bool := do
  (softly ("Failed to fetch README for " ++ s.name) (storeReadme p remote s) : StateM State Unit)
  match ← (asking (p.client.archive remote (p.client.archiveUrl s.fullName)) : StateM State _) with
  | .error (.unavailable _) =>
    dropRecord s id
    return false
  | .error f => throw (archiveFailure f)
  | .ok data => fillFrom p remote s r id data

theorem syncSteps_eq (p : Plan) (remote : Remote) (s : Remote.Summary) (r : RepositorySource) :
    syncSteps p remote s r = (storeRecord s >>= afterRecord p remote s r) := rfl

private theorem afterRecord_synced (p : Plan) (remote : Remote) (r : RepositorySource)
    {σ : State} (hput : t.putRepository (.ofSummary s none) = .ok (u, id))
    (hworks : Works s id u v) (hv : σ.store.tables = some v) :
    Ended s σ t ((afterRecord p remote s r id).run.run σ) := by
  have hnumbered : v.Numbered s.name id := hworks.numbered (Tables.numbered_putRepository hput)
  obtain ⟨hE, -⟩ := Leads.softly ("Failed to fetch README for " ++ s.name)
    (storeReadme_works p remote) σ fun w hw => Option.some.inj (hv.symm.trans hw) ▸ hnumbered
  rw [afterRecord, run_bind, run_lift]
  dsimp only
  rw [run_lift] at hE
  generalize ((softly _ (storeReadme p remote s)).run σ).2 = σ' at hE ⊢
  rw [run_bind, run_lift]
  dsimp only
  -- the question leaves the store and the locks, so only its answer matters
  have haside : Edits (Works s id) σ'
    ((asking (p.client.archive remote (p.client.archiveUrl s.fullName))).run σ').2 := .aside rfl rfl
  generalize (asking _).run σ' = answer at haside ⊢
  obtain ⟨answer, τ⟩ := answer
  have hE : Edits (Works s id) σ τ := IsTrans.trans _ _ _ hE haside
  obtain ⟨w, hw, hworks'⟩ := hE.exists hv
  have hworks := hworks.trans hworks'
  dsimp only
  split
  · obtain ⟨hlocks, horder, hdrop⟩ := dropRecord_run (s := s) hw id
    rw [run_bind]
    rcases hrun : (dropRecord s id).run.run τ with ⟨f | ⟨⟩, υ⟩
    · rw [hrun] at hlocks horder hdrop
      rcases hdrop with ⟨w', -, hok, -⟩ | ⟨hstore, -⟩
      · exact nomatch hok
      · exact ⟨hlocks.trans hE.locks, horder.trans hE.store.outOfOrder, w,
          (congrArg Store.tables hstore).trans hw, .recorded hput hworks nofun⟩
    · rw [hrun] at hlocks horder hdrop
      rcases hdrop with ⟨w', hdelete, -, hw'⟩ | ⟨hstore, hkept⟩
      · exact ⟨hlocks.trans hE.locks, horder.trans hE.store.outOfOrder, w', hw',
          .dropped hput hworks hdelete⟩
      · exact ⟨hlocks.trans hE.locks, horder.trans hE.store.outOfOrder, w,
          (congrArg Store.tables hstore).trans hw,
          .kept hput hworks (hE.store.outOfOrder ▸ hkept rfl)⟩
  · exact ⟨hE.locks, hE.store.outOfOrder, w, hw, .recorded hput hworks nofun⟩
  · rename_i data
    obtain ⟨hfill, htrue⟩ := fillFrom_works p remote r data τ trivial
    obtain ⟨w', hw', hworks'⟩ := hfill.exists hw
    refine ⟨hfill.locks.trans hE.locks, hfill.store.outOfOrder.trans hE.store.outOfOrder, w', hw',
      .recorded hput (hworks.trans hworks') fun hfalse => ?_⟩
    exact nomatch htrue false hfalse

/-- The steps of a sync begin with the record, and go on under its number. Nothing but the want of
an archive lets them remove the record. -/
theorem syncSteps_synced (p : Plan) (remote : Remote) (s : Remote.Summary) (r : RepositorySource)
    (σ : State) (ht : σ.store.tables = some t) :
    Ended s σ t ((syncSteps p remote s r).run.run σ) := by
  rcases storeRecord_run s σ with ⟨f, hrun, hwhy⟩ | ⟨t₀, u, id, ht₀, hput, x, hx, hrun⟩
  · rw [syncSteps_eq, run_bind_error hrun]
    exact ⟨rfl, rfl, t, ht, .unrecorded (hwhy (ht ▸ Option.some_ne_none t))⟩
  · cases ht.symm.trans ht₀
    rcases hclear : (storeRecord s).run.run σ with ⟨f | n, σ₁⟩
    · have hE := (hx.of_run trivial (hrun.symm.trans hclear)).1
      obtain ⟨v, hv, hworks⟩ := hE.exists rfl
      rw [syncSteps_eq, run_bind_error hclear]
      exact ⟨hE.locks, hE.store.outOfOrder, v, hv, .recorded hput hworks nofun⟩
    · obtain ⟨hE, rfl⟩ := hx.of_run trivial (hrun.symm.trans hclear) |>.imp_right (· n rfl)
      obtain ⟨v, hv, hworks⟩ := hE.exists rfl
      rw [syncSteps_eq, run_bind_ok hclear]
      obtain ⟨hlocks, horder, t', ht', hsynced⟩ := afterRecord_synced p remote r hput hworks hv
      exact ⟨hlocks.trans hE.locks, horder.trans hE.store.outOfOrder, t', ht',
        hE.store.outOfOrder ▸ hsynced⟩

/-- Without tables the record cannot be looked for, and nothing is done. -/
theorem syncSteps_noTables (p : Plan) (remote : Remote) (s : Remote.Summary) (r : RepositorySource)
    {σ : State} (h : σ.store.tables = none) :
    ∃ f, (syncSteps p remote s r).run.run σ = (.error f, σ) := by
  rcases storeRecord_run s σ with ⟨f, hrun, -⟩ | ⟨t, u, id, ht, -⟩
  · exact ⟨f, run_bind_error hrun _⟩
  · exact nomatch h.symm.trans ht

/-! ### The sync under its lock -/

/-- What a failed sync tells. -/
def failed (s : Remote.Summary) (reason : Text) : RepositoryResult :=
  ⟨s.name, false, some (("Failed to sync " : Text) ++ s.name ++ ": " ++ reason), false⟩

/-- What a sync tells whose steps ended with a result. -/
def told (s : Remote.Summary) : Except Failure Bool → RepositoryResult
  | .ok available => ⟨s.name, true, none, !available⟩
  | .error f => failed s f.message

/-- The reason for which a sync fails whose lock is held. -/
def heldReason : Text := "sync already in progress"

/-- The lines of the log about a result. -/
def linesAbout (result : RepositoryResult) : List LogLine :=
  result.error.toList.map (⟨.error, ·⟩)

variable (p : Plan) (remote : Remote) (r : RepositorySource) {σ : State}

theorem syncRepository_held (h : σ.locks.isHeld s.fullName = true) :
    (syncRepository p remote s r).run σ = (failed s heldReason,
      { σ with log := σ.log ++ linesAbout (failed s heldReason) }) := by
  have hacquire : σ.locks.acquire? s.fullName = none := by rw [Locks.acquire?, if_pos h]
  rw [syncRepository, stateRun_bind, stateRun_get]
  dsimp only
  rw [hacquire]
  rfl

/-- The steps run while the lock is held, which is given back afterwards. -/
theorem syncRepository_free (h : σ.locks.isHeld s.fullName = false) :
    (syncRepository p remote s r).run σ =
      let steps := (syncSteps p remote s r).run.run
        { σ with locks := ⟨s.fullName :: σ.locks.held⟩ }
      (told s steps.1, { steps.2 with
        locks := steps.2.locks.release s.fullName
        log := steps.2.log ++ linesAbout (told s steps.1) }) := by
  have hacquire : σ.locks.acquire? s.fullName = some ⟨s.fullName :: σ.locks.held⟩ := by
    rw [Locks.acquire?, h]
    rfl
  rw [syncRepository, stateRun_bind, stateRun_get]
  dsimp only
  rw [hacquire]
  dsimp only
  rw [stateRun_bind, stateRun_modify, stateRun_bind]
  dsimp only
  rcases (syncSteps p remote s r).run.run { σ with locks := ⟨s.fullName :: σ.locks.held⟩ }
    with ⟨f | available, τ⟩
  · rfl
  · dsimp only
    rw [told, linesAbout, Option.toList_none, List.map_nil, List.append_nil]
    rfl

private theorem release_acquired {locks : Locks} {name : Text} (h : locks.isHeld name = false) :
    Locks.release ⟨name :: locks.held⟩ name = locks := by
  have hmem : ∀ x ∈ locks.held, (x != name) = true := by
    intro x hx
    refine bne_iff_ne.mpr fun hname => ?_
    rw [Locks.isHeld, List.contains_iff_mem.mpr (hname ▸ hx)] at h
    exact nomatch h
  rw [Locks.release, List.filter_cons_of_neg (by simp), List.filter_eq_self.mpr hmem]

/-- A sync leaves the locks and the order of the store as they were. Either its lock is held and it
leaves the whole store; or it does to the tables what its steps did, and tells how they ended. -/
theorem syncRepository_synced (s : Remote.Summary) (σ : State) :
    let run := (syncRepository p remote s r).run σ
    run.2.locks = σ.locks ∧ run.2.store.outOfOrder = σ.store.outOfOrder ∧
      ((σ.locks.isHeld s.fullName = true ∧ run.1 = failed s heldReason ∧ run.2.store = σ.store) ∨
        (σ.locks.isHeld s.fullName = false ∧ ∃ outcome, run.1 = told s outcome ∧
          ∀ t, σ.store.tables = some t →
            ∃ t', run.2.store.tables = some t' ∧ Synced s σ.store.outOfOrder t outcome t')) := by
  intro run
  cases h : σ.locks.isHeld s.fullName with
  | true =>
    have hrun : run = _ := syncRepository_held p remote r h
    rw [hrun]
    exact ⟨rfl, rfl, .inl ⟨rfl, rfl, rfl⟩⟩
  | false =>
    have hrun : run = _ := syncRepository_free p remote r h
    rw [hrun]
    dsimp only
    cases ht : σ.store.tables with
    | none =>
      obtain ⟨f, hsteps⟩ := syncSteps_noTables p remote s r
        (σ := { σ with locks := ⟨s.fullName :: σ.locks.held⟩ }) ht
      rw [hsteps]
      exact ⟨release_acquired h, rfl, .inr ⟨rfl, _, rfl, fun t ht => nomatch ht⟩⟩
    | some t =>
      obtain ⟨hlocks, horder, t', ht', hsynced⟩ := syncSteps_synced p remote s r
        { σ with locks := ⟨s.fullName :: σ.locks.held⟩ } ht
      refine ⟨?_, horder, .inr ⟨rfl, _, rfl, fun u hu => ?_⟩⟩
      · rw [hlocks]
        exact release_acquired h
      · cases hu
        exact ⟨t', ht', hsynced⟩

end ProviderCatalog.Sync
