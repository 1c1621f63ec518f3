import ProviderCatalog.CommandLine.Command
import ProviderCatalog.Proofs.Sync.Repeating

/-!
# The verdict of the command

The exit code of a command that runs one sync passes judgement on all of its stages: on the sources,
on looking up the repositories, and on the sync of each of them. It is zero just if every stage came
to its end and no sync failed, and one otherwise. With repositories of different names the code zero
therefore means that each of them is settled: its record is of the time that was reported, or its
archive was not available and it has no record.

## Main definitions

* `configured`: the repositories that a command is about.
* `Work.plan`, `Work.start`: the plan of the sync of a command, and the state it starts from.
* `Verdict`: what the exit code of a command says about its sync.

## Main results

* `Work.perform_once`: a command that runs one sync ends by the outcome of the run.
* `perform_code`: the exit code of a command that runs one sync.
-/

namespace ProviderCatalog.CommandLine

open ProviderCatalog.Configuration (FileState RepositorySource Settings Sources SourcesFault)
open Store (Tables)
open Sync (Found Ledger Mode Plan Progress RunFailure Settled State lookUp)

/-- The repositories that a command is about: those that the sources switch on, or the one of the
settings if there are no sources. -/
def configured (s : Settings) : Option Sources → List RepositorySource
  | some x => x.enabled
  | none => [⟨s.repository, none, true⟩]

/-- The kind of run that options ask for. -/
def Options.mode (o : Options) : Mode := if o.updates then .updates else .full

/-- The plan of the sync of a command. -/
def Work.plan (w : Work) (s : Settings) (store : Store) : Plan :=
  .ofSettings s (w.jobs s store).client (w.jobs s store).repositories

/-- The state that the sync of a command starts from. -/
def Work.start (w : Work) (s : Settings) (store : Store) : State := (w.jobs s store).state

/-- What the exit code of a command says about its sync, which leaves a store: zero just if all
repositories were looked up and no sync failed, and then each of them is settled if their names
differ. -/
structure Verdict (p : Plan) (remote : Remote) (mode : Mode) (σ : State) (code : Nat)
    (after : Store) : Prop where
  binary : code = 0 ∨ code = 1
  /-- A repository cannot be looked up, or is not to be synced. -/
  notFound : ∀ f τ, (lookUp p remote p.repositories).run.run σ = (.error f, τ) → code = 1
  /-- The sync of a repository fails. -/
  notSynced : ∀ l τ, (p.ledger remote mode).run.run σ = (.ok l, τ) →
    (∃ e ∈ l, e.2.error? ≠ none) → code = 1
  passed : ∀ l τ, (p.ledger remote mode).run.run σ = (.ok l, τ) →
    (∀ e ∈ l, e.2.error? = none) → code = 0
  /-- Every repository of the plan was looked up and synced or skipped, and is settled. -/
  settled : code = 0 → ∃ l τ υ, (p.ledger remote mode).run.run σ = (.ok l, τ) ∧
    (lookUp p remote p.repositories).run.run σ = (.ok (l.map (·.1)), υ) ∧
    l.map (·.1.2) = p.repositories ∧
    ((l.map (·.1.1.name)).Nodup → ∃ t, after.tables = some t ∧ ∀ e ∈ l, Settled t e)

variable {s : Settings} {o : Options} {store : Store} {remote : Remote} {seconds : Binary64}
  {w : Work} {p : Plan} {mode : Mode} {σ τ : State} {t : Tables} {l : Ledger} {f : RunFailure}

/-! ### Runs -/

/-- An opening that starts without a cache looks up the repositories first. -/
private theorem opening_of_notFound (hcache : σ.session.cache.clear = σ.session.cache)
    (h : (lookUp p remote p.repositories).run.run σ = (.error f, τ)) :
    (p.opening remote mode).run.run σ = (.error f, τ) := by
  cases mode with
  | full => rw [Plan.opening, run_bind_error h]
  | updates =>
    rw [Plan.opening, run_bind, run_modify]
    dsimp only
    rw [hcache, run_bind_error h]

/-- The repositories of a ledger are those that were looked up. -/
private theorem ledger_found (hcache : σ.session.cache.clear = σ.session.cache)
    (h : (p.ledger remote mode).run.run σ = (.ok l, τ)) :
    ∃ υ, (lookUp p remote p.repositories).run.run σ = (.ok (l.map (·.1)), υ) := by
  obtain ⟨marks, υ, hopening, hsettle⟩ := Plan.exists_marks h
  have hlines := Sync.settle_lines p remote marks υ
  rw [hsettle] at hlines
  have hmarks : marks.map (·.1) = l.map (·.1) := by
    rw [← hlines, List.map_map]
    rfl
  rcases hlookUp : (lookUp p remote p.repositories).run.run σ with ⟨f | found, φ⟩
  · rw [opening_of_notFound hcache hlookUp] at hopening
    exact nomatch hopening
  · refine ⟨φ, ?_⟩
    suffices found = marks.map (·.1) by rw [this, hmarks]
    cases mode with
    | full =>
      rw [Plan.opening, run_bind_ok hlookUp] at hopening
      cases hopening
      rw [List.map_map]
      exact (List.map_id found).symm
    | updates =>
      rw [Plan.opening, run_bind, run_modify] at hopening
      dsimp only at hopening
      rw [hcache, run_bind_ok hlookUp] at hopening
      exact (Sync.markUpToDate_found hopening).symm

/-! ### Endings -/

/-- A run that came to its end ends the command with zero, unless it reports errors. -/
private theorem code_ofRun_ok (mode : Mode) (seconds : Binary64) (g : Progress) :
    (Ending.ofResult (.ofRun mode seconds (.ok g))).code = if g.errors.isEmpty then 0 else 1 := by
  change (if g.errors.isEmpty then (⟨0, []⟩ : Ending) else .failed g.errors).code = _
  cases g.errors <;> rfl

/-- The code by which a run ends the command passes judgement on the run. -/
private theorem verdict_ofRun (ht : σ.store.tables = some t) (hvalid : t.Valid)
    (hcache : σ.session.cache.clear = σ.session.cache) :
    Verdict p remote mode σ
      (Ending.ofResult (.ofRun mode seconds ((p.run remote mode).run.run σ).1)).code
      ((p.run remote mode).run.run σ).2.store := by
  have hrun := Plan.run_eq_ledger p remote mode σ
  rcases hledger : (p.ledger remote mode).run.run σ with ⟨f | l, τ⟩
  · rw [hledger] at hrun
    rw [hrun]
    exact {
      binary := .inr rfl
      notFound := fun _ _ _ => rfl
      notSynced := fun _ _ h => nomatch hledger.symm.trans h
      passed := fun _ _ h => nomatch hledger.symm.trans h
      settled := nofun }
  · rw [hledger] at hrun
    rw [hrun, code_ofRun_ok]
    have haccounts := p.ledger_accounts remote hledger
    have herrors : (Progress.ofLedger (mode = .updates) l).errors.isEmpty = true ↔
        ∀ e ∈ l, e.2.error? = none := by
      rw [haccounts.errors, List.isEmpty_iff, List.filterMap_eq_nil_iff]
    obtain ⟨υ, hfound⟩ := ledger_found hcache hledger
    constructor
    case binary =>
      cases (Progress.ofLedger (mode = .updates) l).errors.isEmpty
      · exact .inr rfl
      · exact .inl rfl
    case notFound => exact fun f τ h => nomatch hfound.symm.trans h
    case notSynced =>
      rintro l' τ' h ⟨e, he, herror⟩
      cases hledger.symm.trans h
      exact if_neg fun hempty => herror (herrors.mp hempty e he)
    case passed =>
      intro l' τ' h hnone
      cases hledger.symm.trans h
      exact if_pos (herrors.mpr hnone)
    case settled =>
      intro hcode
      have hempty : (Progress.ofLedger (mode = .updates) l).errors.isEmpty = true := by
        by_contra hne
        rw [if_neg hne] at hcode
        exact nomatch hcode
      refine ⟨l, τ, υ, hledger, hfound, haccounts.listed, fun hnames => ?_⟩
      obtain ⟨-, t', ht', -, hsettled⟩ :=
        Plan.ledger_settled ht hvalid hledger (herrors.mp hempty) hnames
      exact ⟨t', ht', hsettled⟩

/-! ### Commands -/

variable {environment : List (Text × Text)} {found : Text → FileState} {sources : Option Sources}

/-- A command that runs one sync runs its plan, and ends by the outcome of the run. -/
theorem Work.perform_once (w : Work) (s : Settings) (store : Store) (remote : Remote)
    (seconds : Binary64) (hw : w.task = .once mode) :
    let run := ((w.plan s store).run remote mode).run.run (w.start s store)
    let outcome := w.perform s store remote seconds
    outcome.ending = .ofResult (.ofRun mode seconds run.1) ∧
      ∃ jobs, outcome.jobs = some jobs ∧ jobs.state.store = run.2.store := by
  dsimp only
  rw [Work.perform, hw]
  exact ⟨rfl, _, rfl, rfl⟩

/-- A command whose sources switch no repository on ends at once. -/
private theorem work_of_none (o : Options) (h : configured s sources = []) :
    ∃ ending, Work.of s o (.ok sources) = .error ending ∧ ending.code = 1 := by
  cases sources with
  | none => exact nomatch h
  | some x => exact ⟨_, if_pos (List.isEmpty_iff.mpr h), rfl⟩

/-- A command that is about some repositories goes to work on them. -/
private theorem work_of_some (o : Options) (h : configured s sources ≠ []) :
    ∃ w, Work.of s o (.ok sources) = .ok w ∧ w.task = .of s o sources ∧
      ∀ store, (w.plan s store).repositories = configured s sources := by
  cases sources with
  | none => exact ⟨_, rfl, rfl, fun _ => rfl⟩
  | some x =>
    have hsome : ¬x.enabled.isEmpty = true := mt List.isEmpty_iff.mp h
    exact ⟨_, if_neg hsome, rfl, fun _ => if_neg hsome⟩

private theorem code_ofSourcesFault (f : SourcesFault) : (Ending.ofSourcesFault f).code = 1 := by
  unfold Ending.ofSourcesFault
  split <;> try rfl
  split <;> rfl

/-- The exit code of a command that runs one sync passes judgement on all of its stages. It is one
if the sources cannot be loaded or switch no repository on; otherwise there is a sync of all
repositories that the command is about, and the exit code is the verdict on it. -/
theorem perform_code (s : Settings) (environment : List (Text × Text)) (found : Text → FileState)
    (o : Options) (store : Store) (remote : Remote) (seconds : Binary64)
    (ht : store.tables = some t) (hvalid : t.Valid) (honce : o.schedule = false)
    (hrefresh : ∀ x, sourcesFor environment found o.sources = .ok (some x) →
      x.refresh.enabled = false) :
    let outcome := perform s environment found o store remote seconds
    (∀ f, sourcesFor environment found o.sources = .error f → outcome.ending.code = 1) ∧
      ∀ sources, sourcesFor environment found o.sources = .ok sources →
        (configured s sources = [] → outcome.ending.code = 1) ∧
        (configured s sources ≠ [] → ∃ w jobs, Work.of s o (.ok sources) = .ok w ∧
          (w.plan s store).repositories = configured s sources ∧ outcome.jobs = some jobs ∧
          Verdict (w.plan s store) remote o.mode (w.start s store) outcome.ending.code
            jobs.state.store) := by
  intro outcome
  refine ⟨fun f hf => ?_, fun sources hsources => ⟨fun hnone => ?_, fun hsome => ?_⟩⟩
  · have houtcome : outcome = ⟨.ofSourcesFault f, none⟩ := by
      simp only [outcome, perform, hf, Work.of]
    rw [houtcome]
    exact code_ofSourcesFault f
  · obtain ⟨ending, hending, hcode⟩ := work_of_none o hnone
    have houtcome : outcome = ⟨ending, none⟩ := by
      simp only [outcome, perform, hsources, hending]
    rw [houtcome, hcode]
  · obtain ⟨w, hw, htask, hrepositories⟩ := work_of_some o hsome
    have hnow : (o.schedule || sources.any (·.refresh.enabled)) = false := by
      cases sources with
      | none => simp [honce]
      | some x => simp [honce, hrefresh x hsources]
    have hmode : w.task = .once o.mode := by
      rw [htask, Task.of.eq_def, hnow]
      rfl
    have houtcome : outcome = w.perform s store remote seconds := by
      simp only [outcome, perform, hsources, hw]
    obtain ⟨hending, jobs, hjobs, hstore⟩ := w.perform_once s store remote seconds hmode
    refine ⟨w, jobs, hw, hrepositories store, houtcome ▸ hjobs, ?_⟩
    rw [houtcome, hending, hstore]
    exact verdict_ofRun (σ := w.start s store) ht hvalid rfl

/-- A file with two repositories, of which one is switched on. -/
def oneOfTwo : FileState :=
  .file ("repositories:\n- full_name: a/x\n- full_name: a/z\n  enabled: false\n".toList.map
    fun c => UInt8.ofNat c.toNat)

set_option maxRecDepth 100000 in
private theorem oneOfTwo_synced :
    sourcesFor [] (fun _ => oneOfTwo) none =
        .ok (some ⟨[⟨"a/x", none, true⟩, ⟨"a/z", none, false⟩], .standard, .standard⟩) ∧
      (perform .standard [] (fun _ => oneOfTwo) .none .ready Sync.twoThere .nan).ending.code =
        0 := by
  decide +kernel

/-- The repository that is switched on is synced, and the exit code says so. -/
theorem perform_code_of_oneOfTwo :
    let outcome := perform .standard [] (fun _ => oneOfTwo) .none .ready Sync.twoThere .nan
    outcome.ending.code = 0 ∧ ∃ (w : Work) (jobs : Sync.Jobs),
      (w.plan .standard .ready).repositories = [⟨"a/x", none, true⟩] ∧ outcome.jobs = some jobs ∧
      Verdict (w.plan .standard .ready) Sync.twoThere .full (w.start .standard .ready)
        outcome.ending.code jobs.state.store := by
  obtain ⟨hsources, hcode⟩ := oneOfTwo_synced
  have hrefresh (x) (hx : sourcesFor [] (fun _ => oneOfTwo) Options.none.sources = .ok (some x)) :
      x.refresh.enabled = false :=
    congrArg (·.refresh.enabled) (Option.some.inj (Except.ok.inj (hx.symm.trans hsources)))
  obtain ⟨-, hverdict⟩ := perform_code .standard [] (fun _ => oneOfTwo) .none .ready Sync.twoThere
    .nan (t := .empty) rfl .empty rfl hrefresh
  obtain ⟨w, jobs, -, hrepositories, hjobs, hverdict⟩ := (hverdict _ hsources).2 nofun
  exact ⟨hcode, w, jobs, hrepositories, hjobs, hverdict⟩

end ProviderCatalog.CommandLine
