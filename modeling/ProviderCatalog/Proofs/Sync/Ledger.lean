import ProviderCatalog.Proofs.Sync.Actions
import ProviderCatalog.Proofs.Remote.Summaries
import ProviderCatalog.Proofs.Sync.Effect

/-!
# The ledger of a run

The ledger of a run has one line for every repository of the plan, in the order of the plan: the
repository was found to be up to date and skipped, or it was synced with a result. A run decides all
of that first, without touching the store or the locks; that is its opening. It finds every
repository of the plan, with a summary whose texts can be encoded and that does not keep it from
being synced, and in an updating run it marks the repositories whose stored record is of the time
that was reported. Then it syncs what is left, which cannot fail as a whole. The report of a run is
made from its ledger.

A run either fails in its opening, and then the store is as it was, or it accounts for every
repository of its plan exactly once. Whatever fails while a repository is synced ends up in the
result of its sync, so a run whose opening succeeds does not fail.

## Main definitions

* `Account`, `Ledger`: what became of a repository, and of all of them.
* `Plan.opening`, `settle`, `Plan.ledger`: the two parts of a run with its ledger.
* `Progress.ofLedger`: the report that a ledger makes.
* `Aside`: neither the store nor the locks are touched.
* `Opened`: what an opening finds, and what it marks.
* `Tells`: what the sync of a repository can tell.
* `Accounts`: a report and a ledger that account for every repository of a plan.

## Main results

* `Plan.run_eq_ledger`: the report of a run is the report of its ledger.
* `markUpToDate_found`: every repository that was found is marked or not.
* `settle_lines`: the ledger has the repositories that were found, and skips those with a mark.
* `opening_opens`: what every opening that does not fail finds and marks.
* `syncRepository_tells`: a sync tells of a success, or of a failure with the name of the
  repository.
* `Plan.run_accounts`: a run fails in its opening or accounts for every repository.
-/

namespace ProviderCatalog.Sync

open ProviderCatalog.Configuration (RepositorySource)

/-- What became of a repository of a run. -/
inductive Account where
  | skipped
  | synced (result : RepositoryResult)
deriving DecidableEq, Repr

namespace Account

/-- Whether the repository was skipped. -/
def isSkipped : Account → Bool
  | skipped => true
  | synced _ => false

/-- The result of the sync, if there was one. -/
def result? : Account → Option RepositoryResult
  | skipped => none
  | synced r => some r

end Account

/-- What became of the repositories of a run, in the order of its plan. -/
abbrev Ledger := List (Found × Account)

/-- The results of the syncs of a run. -/
def Ledger.results (l : Ledger) : List RepositoryResult := l.filterMap (·.2.result?)

/-! ### The two parts of a run -/

/-- The repositories that were found, each with a mark whether it is up to date. -/
def markUpToDate : List Found → Run (List (Found × Bool))
  | [] => return []
  | f :: rest => do
    match ← (reading (·.repository? f.1.name) : StateM State _) with
    | .error e => throw (.store e)
    | .ok stored => return (f, isUpToDate f.1 stored) :: (← markUpToDate rest)

/-- The opening of a run: all repositories are looked up, and those that are up to date are marked.
A full run marks none. -/
def Plan.opening (p : Plan) (remote : Remote) : Mode → Run (List (Found × Bool))
  | .full => do return (← lookUp p remote p.repositories).map (·, false)
  | .updates => do
    modify fun s => { s with session := { s.session with cache := s.session.cache.clear } }
    markUpToDate (← lookUp p remote p.repositories)

/-- The rest of a run: the repositories without a mark are synced one after the other. -/
def settle (p : Plan) (remote : Remote) : List (Found × Bool) → StateM State Ledger
  | [] => return []
  | (f, true) :: rest => return (f, .skipped) :: (← settle p remote rest)
  | (f, false) :: rest => do
    let result ← syncRepository p remote f.1 f.2
    return (f, .synced result) :: (← settle p remote rest)

/-- A run with its ledger. -/
def Plan.ledger (p : Plan) (remote : Remote) (mode : Mode) : Run Ledger := do
  settle p remote (← p.opening remote mode)

/-- The report that a ledger makes; `listed` tells whether repositories that were brought up to date
are listed. -/
def Progress.ofLedger (listed : Bool) (l : Ledger) : Progress where
  total := l.length
  processed := l.length
  skipped := l.countP (·.2.isSkipped)
  current := (l.results.getLast?.map (·.name)).or (l.getLast?.map (·.1.1.name))
  errors := l.results.flatMap fun r => if r.success then [] else [r.error.getD []]
  updated := l.results.flatMap fun r =>
    if r.success && listed && !r.unavailable then [r.name] else []

/-! ### The report is made from the ledger -/

variable {p : Plan} {remote : Remote} {σ : State}

/-- The report after the marks were looked at. -/
private def afterMarks (g : Progress) (marks : List (Found × Bool)) : Progress :=
  marks.foldl (fun g m => if m.2 then g.skip m.1.1.name else g.visit m.1.1.name) g

/-- The repositories without a mark. -/
def unmarked (marks : List (Found × Bool)) : List Found :=
  marks.filterMap fun m => if m.2 then none else some m.1

/-- Every repository that was found is marked or not. -/
theorem markUpToDate_found {found : List Found} {marks : List (Found × Bool)} {τ : State}
    (h : (markUpToDate found).run.run σ = (.ok marks, τ)) : marks.map (·.1) = found := by
  induction found generalizing marks with
  | nil =>
    cases h
    rfl
  | cons f found ih =>
    rw [markUpToDate, run_bind, run_lift, run_reading] at h
    dsimp only at h
    split at h
    · exact nomatch h
    · rw [run_bind] at h
      rcases hrest : (markUpToDate found).run.run σ with ⟨e | rest, υ⟩
      · rw [hrest] at h
        exact nomatch h
      · rw [hrest] at h
        cases h
        exact congrArg (f :: ·) (ih hrest)

private theorem run_selectOutdated (found : List Found) (g : Progress) (σ : State) :
    (selectOutdated g found).run.run σ = match (markUpToDate found).run.run σ with
      | (.ok marks, τ) => (.ok (afterMarks g marks, unmarked marks), τ)
      | (.error e, τ) => (.error e, τ) := by
  induction found generalizing g with
  | nil => rfl
  | cons f found ih =>
    rw [selectOutdated, markUpToDate, run_bind, run_lift, run_bind, run_lift, run_reading]
    dsimp only
    cases σ.store.repository? f.1.name with
    | error e => rfl
    | ok stored =>
      dsimp only
      rw [run_bind]
      cases hmark : isUpToDate f.1 stored with
      | true =>
        rw [if_pos rfl, ih]
        rcases (markUpToDate found).run.run σ with ⟨e | marks, τ⟩
        · rfl
        · rfl
      | false =>
        rw [if_neg Bool.false_ne_true, run_bind, ih]
        rcases (markUpToDate found).run.run σ with ⟨e | marks, τ⟩
        · rfl
        · rfl

/-- Syncing the repositories without a mark is the rest of a run. -/
theorem run_syncAll (p : Plan) (remote : Remote) (listed : Bool)
    (marks : List (Found × Bool)) (g : Progress) (σ : State) :
    (syncAll p remote listed g (unmarked marks)).run σ =
      (((settle p remote marks).run σ).1.results.foldl (Progress.record listed) g,
        ((settle p remote marks).run σ).2) := by
  induction marks generalizing g σ with
  | nil => rfl
  | cons m marks ih =>
    obtain ⟨f, mark⟩ := m
    cases mark with
    | true => exact ih g σ
    | false => exact ih _ _

/-! ### Adding up -/

private theorem last_or {α : Type} (name : α → Text) (a : α) (l : List α) (t : Option Text) :
    ((a :: l).getLast?.map name).or t = (l.getLast?.map name).or (some (name a)) := by
  rw [List.getLast?_cons]
  cases l.getLast? <;> rfl

private theorem afterMarks_eq (g : Progress) (marks : List (Found × Bool)) :
    afterMarks g marks = { g with
      processed := g.processed + marks.countP (·.2)
      skipped := g.skipped + marks.countP (·.2)
      current := (marks.getLast?.map (·.1.1.name)).or g.current } := by
  induction marks generalizing g with
  | nil => simp [afterMarks]
  | cons m marks ih =>
    obtain ⟨f, mark⟩ := m
    rw [afterMarks, List.foldl_cons, ← afterMarks, ih]
    cases mark with
    | true =>
      simp only [Progress.skip, last_or, if_true, List.countP_cons, Int.natCast_add,
        Int.natCast_one, Int.add_assoc, Int.add_comm 1]
    | false =>
      simp only [Progress.visit, last_or, Bool.false_eq_true, if_false, List.countP_cons,
        Nat.add_zero]

private theorem records_eq (listed : Bool) (g : Progress) (rs : List RepositoryResult) :
    rs.foldl (Progress.record listed) g = { g with
      processed := g.processed + rs.length
      current := (rs.getLast?.map (·.name)).or g.current
      errors := g.errors ++ rs.flatMap fun r => if r.success then [] else [r.error.getD []]
      updated := g.updated ++ rs.flatMap fun r =>
        if r.success && listed && !r.unavailable then [r.name] else [] } := by
  induction rs generalizing g with
  | nil => simp
  | cons r rs ih =>
    rw [List.foldl_cons, ih]
    simp only [Progress.record, last_or, List.length_cons, Int.natCast_add, Int.natCast_one,
      Int.add_assoc, Int.add_comm 1, List.append_assoc, List.flatMap_cons]

/-- The ledger has one line for every repository that was found, with a mark if it was skipped. -/
theorem settle_lines (p : Plan) (remote : Remote) (marks : List (Found × Bool)) (σ : State) :
    ((settle p remote marks).run σ).1.map (fun e => (e.1, e.2.isSkipped)) = marks := by
  induction marks generalizing σ with
  | nil => rfl
  | cons m marks ih =>
    obtain ⟨f, mark⟩ := m
    cases mark with
    | true => exact congrArg (((f, true)) :: ·) (ih σ)
    | false => exact congrArg (((f, false)) :: ·) (ih _)

private theorem results_length (l : Ledger) :
    l.countP (·.2.isSkipped) + l.results.length = l.length := by
  induction l with
  | nil => rfl
  | cons e l ih =>
    obtain ⟨f, account⟩ := e
    cases account with
    | skipped =>
      simp only [Ledger.results, List.countP_cons, Account.isSkipped, if_true, List.filterMap_cons,
        Account.result?, List.length_cons] at ih ⊢
      omega
    | synced r =>
      simp only [Ledger.results, List.countP_cons, Account.isSkipped, Bool.false_eq_true, if_false,
        List.filterMap_cons, Account.result?, List.length_cons] at ih ⊢
      omega

/-- Looking at the marks and recording the results of the syncs makes the report of the ledger. -/
private theorem report_eq (listed : Bool) (marks : List (Found × Bool)) (σ : State) :
    ((settle p remote marks).run σ).1.results.foldl (Progress.record listed)
        (afterMarks (.start marks.length) marks) =
      .ofLedger listed ((settle p remote marks).run σ).1 := by
  have hlines := settle_lines p remote marks σ
  generalize ((settle p remote marks).run σ).1 = l at hlines
  subst hlines
  have hprocessed : ((l.countP (·.2.isSkipped) : Nat) : Int) + l.results.length = l.length := by
    exact_mod_cast results_length l
  simp only [records_eq, afterMarks_eq, Progress.start, Progress.ofLedger, List.length_map,
    List.countP_map, List.getLast?_map, List.nil_append, Int.zero_add, Option.map_map,
    Function.comp_def, Option.or_none, hprocessed]

/-- Where nothing is skipped, the results alone make the report of the ledger. -/
private theorem report_eq_of_unmarked (listed : Bool) (found : List Found) (σ : State) :
    ((settle p remote (found.map (·, false))).run σ).1.results.foldl (Progress.record listed)
        (Progress.start found.length) =
      Progress.ofLedger listed ((settle p remote (found.map (·, false))).run σ).1 := by
  have hlines := settle_lines p remote (found.map (·, false)) σ
  generalize ((settle p remote (found.map (·, false))).run σ).1 = l at hlines
  have hfound : found.length = l.length := by simpa using congrArg List.length hlines.symm
  have hskipped : l.countP (·.2.isSkipped) = 0 := by
    have hcount := congrArg (List.countP (·.2)) hlines
    simpa [List.countP_map, Function.comp_def] using hcount
  have hresults : l.results.length = l.length := by
    have hlength := results_length l
    omega
  have hcurrent : (l.results.getLast?.map (·.name)).or none =
      (l.results.getLast?.map (·.name)).or (l.getLast?.map (·.1.1.name)) := by
    cases hlast : l.results.getLast? with
    | some r => rfl
    | none =>
      rw [List.getLast?_eq_none_iff.mp hlast] at hresults
      rw [List.eq_nil_of_length_eq_zero hresults.symm]
      rfl
  simp only [records_eq, Progress.start, Progress.ofLedger, List.nil_append, Int.zero_add, hfound,
    hskipped, hresults, hcurrent, Int.natCast_zero]

private theorem unmarked_map (found : List Found) : unmarked (found.map (·, false)) = found := by
  rw [unmarked, List.filterMap_map]
  exact List.filterMap_some

/-- The report of a run is the report of its ledger, and a run fails where the run with the ledger
fails. -/
theorem Plan.run_eq_ledger (p : Plan) (remote : Remote) (mode : Mode) (σ : State) :
    (p.run remote mode).run.run σ = match (p.ledger remote mode).run.run σ with
      | (.ok l, τ) => (.ok (.ofLedger (mode = .updates) l), τ)
      | (.error f, τ) => (.error f, τ) := by
  cases mode with
  | full =>
    rw [Plan.run, Plan.runFull, Plan.ledger, Plan.opening, run_bind, run_bind, run_bind]
    rcases (lookUp p remote p.repositories).run.run σ with ⟨f | found, τ⟩
    · rfl
    · dsimp only
      rw [run_lift, run_pure]
      dsimp only
      rw [run_lift]
      have hsync := run_syncAll p remote false (found.map (·, false)) (.start found.length) τ
      rw [unmarked_map, report_eq_of_unmarked] at hsync
      rw [hsync]
      rfl
  | updates =>
    rw [Plan.run, Plan.runUpdates, Plan.ledger, Plan.opening, run_bind, run_bind, run_bind,
      run_modify]
    dsimp only
    rw [run_bind, run_bind]
    rcases (lookUp p remote p.repositories).run.run _ with ⟨f | found, τ⟩
    · rfl
    · dsimp only
      rw [run_bind, run_selectOutdated]
      rcases hmarks : (markUpToDate found).run.run τ with ⟨f | marks, υ⟩
      · rfl
      · dsimp only
        have hfound : found.length = marks.length := by
          rw [← markUpToDate_found hmarks, List.length_map]
        rw [run_lift, run_lift, run_syncAll, hfound, report_eq]
        rfl

/-- A run with a ledger has marked the repositories that it settles. -/
theorem Plan.exists_marks {mode : Mode} {τ : State} {l : Ledger}
    (h : (p.ledger remote mode).run.run σ = (.ok l, τ)) :
    ∃ marks υ, (p.opening remote mode).run.run σ = (.ok marks, υ) ∧
      (settle p remote marks).run υ = (l, τ) := by
  rw [Plan.ledger, run_bind] at h
  rcases hopening : (p.opening remote mode).run.run σ with ⟨f | marks, υ⟩
  · rw [hopening] at h
    cases h
  · rw [hopening] at h
    cases h
    exact ⟨marks, υ, rfl, rfl⟩

/-- A run whose ledger is known gives the report of that ledger. -/
theorem Plan.run_of_ledger {mode : Mode} {τ : State} {l : Ledger}
    (h : (p.ledger remote mode).run.run σ = (.ok l, τ)) :
    (p.run remote mode).run.run σ = (.ok (.ofLedger (mode = .updates) l), τ) := by
  rw [Plan.run_eq_ledger, h]

end ProviderCatalog.Sync

/-! ### The opening of a run -/

namespace ProviderCatalog.Sync

open ProviderCatalog.Configuration (RepositorySource)

/-- Neither the store nor the locks are touched. -/
structure Aside (σ τ : State) : Prop where
  store : τ.store = σ.store
  locks : τ.locks = σ.locks

instance : Std.Refl Aside := ⟨fun _ => ⟨rfl, rfl⟩⟩

instance : IsTrans State Aside :=
  ⟨fun _ _ _ h h' => ⟨h'.store.trans h.store, h'.locks.trans h.locks⟩⟩

/-- What an opening finds and marks: the repositories of the plan, and in an updating run a mark on
each that is up to date. -/
structure Opened (p : Plan) (mode : Mode) (marks : List (Found × Bool)) (σ : State) : Prop where
  listed : marks.map (·.1.2) = p.repositories
  unicode : ∀ m ∈ marks, m.1.1.Unicode
  eligible : ∀ m ∈ marks, ineligibility? m.1.1 = none
  full : mode = .full → ∀ m ∈ marks, m.2 = false
  updates : mode = .updates → ∀ m ∈ marks, ∃ stored,
    σ.store.repository? m.1.1.name = .ok stored ∧ m.2 = isUpToDate m.1.1 stored

variable (p : Plan) (remote : Remote) {σ : State}

/-! ### Looking up -/

private theorem lookUpOne_finds (r : RepositorySource) :
    Leads Aside (fun _ => True) (lookUpOne p remote r)
      fun f _ => f.2 = r ∧ f.1.Unicode ∧ ineligibility? f.1 = none := by
  have hask : Leads Aside (fun _ => True)
      (liftM (asking (p.client.summary remote r.fullName)) : Run _)
      fun answer _ => ∀ s, answer = .ok s → s.Unicode := by
    refine .lift fun σ _ => ⟨⟨rfl, rfl⟩, fun s hs => ?_⟩
    exact p.client.summary_unicode remote (Prod.ext hs rfl)
  refine .bind hask fun answer => ?_
  split
  · exact .throw _
  · rename_i s
    split
    · exact .throw _
    · rename_i heligible
      exact .pure fun _ hs => ⟨rfl, hs s rfl, heligible⟩

private theorem lookUp_finds (rs : List RepositorySource) :
    Leads Aside (fun _ => True) (lookUp p remote rs) fun found _ => found.map (·.2) = rs ∧
      ∀ f ∈ found, f.1.Unicode ∧ ineligibility? f.1 = none := by
  induction rs with
  | nil => exact .pure fun _ _ => ⟨rfl, nofun⟩
  | cons r rs ih =>
    refine .bind (lookUpOne_finds p remote r) fun f => ?_
    refine .bind (Q := fun rest _ => (f.2 = r ∧ f.1.Unicode ∧ ineligibility? f.1 = none) ∧
      rest.map (·.2) = rs ∧ ∀ x ∈ rest, x.1.Unicode ∧ ineligibility? x.1 = none) ?_
      fun rest => .pure fun _ h => ?_
    · intro σ hf
      obtain ⟨haside, hrest⟩ := ih σ trivial
      exact ⟨haside, fun rest h => ⟨hf, hrest rest h⟩⟩
    · exact ⟨by rw [List.map_cons, h.1.1, h.2.1], List.forall_mem_cons.mpr ⟨h.1.2, h.2.2⟩⟩

/-! ### Marking -/

/-- Marks are put by what is stored, which marking does not change. -/
private theorem markUpToDate_marks (found : List Found) :
    Leads Aside (fun _ => True) (markUpToDate found) fun marks τ => marks.map (·.1) = found ∧
      ∀ m ∈ marks, ∃ stored,
        τ.store.repository? m.1.1.name = .ok stored ∧ m.2 = isUpToDate m.1.1 stored := by
  induction found with
  | nil => exact .pure fun _ _ => ⟨rfl, nofun⟩
  | cons f found ih =>
    have hread : Leads Aside (fun _ => True) (liftM (reading (·.repository? f.1.name)) : Run _)
        fun stored τ => τ.store.repository? f.1.name = stored :=
      .lift fun _ _ => ⟨⟨rfl, rfl⟩, rfl⟩
    refine .bind hread fun stored => ?_
    split
    · exact .throw _
    · rename_i stored
      refine .bind (Q := fun marks τ => τ.store.repository? f.1.name = .ok stored ∧
        marks.map (·.1) = found ∧ ∀ m ∈ marks, ∃ stored,
          τ.store.repository? m.1.1.name = .ok stored ∧ m.2 = isUpToDate m.1.1 stored) ?_
        fun marks => .pure fun _ h => ?_
      · intro σ hσ
        obtain ⟨haside, hmarks⟩ := ih σ trivial
        exact ⟨haside, fun marks h => ⟨haside.store ▸ hσ, hmarks marks h⟩⟩
      · exact ⟨congrArg (f :: ·) h.2.1, List.forall_mem_cons.mpr ⟨⟨stored, h.1, rfl⟩, h.2.2⟩⟩

/-! ### The opening -/

/-- The opening of a run touches neither the store nor the locks. If it does not fail, it has found
every repository and marked those that are up to date. -/
theorem opening_opens (mode : Mode) :
    Leads Aside (fun _ => True) (p.opening remote mode) fun marks τ => Opened p mode marks τ := by
  cases mode with
  | full =>
    refine .bind (lookUp_finds p remote p.repositories) fun found => .pure fun _ h => ?_
    have hfound (m : Found × Bool) (hm : m ∈ found.map (·, false)) : m.1 ∈ found ∧ m.2 = false := by
      obtain ⟨f, hf, rfl⟩ := List.mem_map.mp hm
      exact ⟨hf, rfl⟩
    refine ⟨?_, fun m hm => (h.2 _ (hfound m hm).1).1, fun m hm => (h.2 _ (hfound m hm).1).2,
      fun _ m hm => (hfound m hm).2, nofun⟩
    rw [← h.1, List.map_map]
    rfl
  | updates =>
    have hclear : Leads Aside (fun _ => True) (modify fun s : State =>
        { s with session := { s.session with cache := s.session.cache.clear } } : Run _)
        fun _ _ => True := fun _ _ => ⟨⟨rfl, rfl⟩, fun _ _ => trivial⟩
    refine .bind hclear fun _ => .bind (lookUp_finds p remote p.repositories) fun found => ?_
    intro σ h
    obtain ⟨haside, hmarks⟩ := markUpToDate_marks found σ trivial
    refine ⟨haside, fun marks hrun => ?_⟩
    obtain ⟨hlisted, hstored⟩ := hmarks marks hrun
    have hfound (m) (hm : m ∈ marks) : m.1 ∈ found := hlisted ▸ List.mem_map_of_mem hm
    refine ⟨?_, fun m hm => (h.2 _ (hfound m hm)).1, fun m hm => (h.2 _ (hfound m hm)).2, nofun,
      fun _ => hstored⟩
    rw [← h.1, ← hlisted, List.map_map]
    rfl

end ProviderCatalog.Sync

namespace ProviderCatalog.Sync

open ProviderCatalog.Configuration (RepositorySource)

/-- What the sync of a repository can tell: that it succeeded, or why it failed. -/
inductive Tells (s : Remote.Summary) : RepositoryResult → Prop
  | success (unavailable : Bool) : Tells s ⟨s.name, true, none, unavailable⟩
  | failure (reason : Text) :
      Tells s ⟨s.name, false, some (("Failed to sync " : Text) ++ s.name ++ ": " ++ reason), false⟩

namespace Account

/-- The error of a sync that failed. -/
def error? : Account → Option Text
  | skipped => none
  | synced r => r.error

/-- Whether the repository was brought up to date. -/
def isUpdated : Account → Bool
  | skipped => false
  | synced r => r.success && !r.unavailable

/-- Whether the repository was synced without an archive. -/
def isUnavailable : Account → Bool
  | skipped => false
  | synced r => r.success && r.unavailable

/-- Only updating runs skip repositories, and syncs tell what they can. -/
inductive Fits (mode : Mode) (s : Remote.Summary) : Account → Prop
  | skipped (h : mode = .updates) : Fits mode s skipped
  | synced {r} (h : Tells s r) : Fits mode s (synced r)

/-- A repository is counted as skipped, as failed, as updated or as unavailable, and only once. -/
theorem Fits.counted_once {mode : Mode} {s : Remote.Summary} {a : Account} (h : a.Fits mode s) :
    (if a.isSkipped then 1 else 0) + (if a.error?.isSome then 1 else 0) +
      (if a.isUpdated then 1 else 0) + (if a.isUnavailable then 1 else 0) = 1 := by
  rcases h with hmode | (unavailable | reason)
  · rfl
  · cases unavailable <;> rfl
  · rfl

end Account

/-- The ledger has one line for every repository of the plan, and the report adds up its lines: a
repository is skipped, or fails with an error of its own, or is brought up to date, or has no
archive. -/
structure Accounts (p : Plan) (mode : Mode) (l : Ledger) (g : Progress) : Prop where
  listed : l.map (·.1.2) = p.repositories
  fits : ∀ e ∈ l, e.2.Fits mode e.1.1
  total : g.total = p.repositories.length
  processed : g.processed = g.total
  skipped : g.skipped = l.countP (·.2.isSkipped)
  errors : g.errors = l.filterMap (·.2.error?)
  updated : g.updated =
    if mode = .updates then (l.filter (·.2.isUpdated)).map (·.1.1.name) else []
  balance : g.skipped + g.errors.length + l.countP (·.2.isUpdated) +
    l.countP (·.2.isUnavailable) = g.total
  updates : mode = .updates → g.skipped + g.errors.length + g.updated.length +
    l.countP (·.2.isUnavailable) = g.total
  full : mode = .full → g.skipped = 0 ∧ g.updated = []

/-! ### Syncs -/

variable (p : Plan) (remote : Remote) {s : Remote.Summary} {σ : State}

theorem syncRepository_tells (s : Remote.Summary) (r : RepositorySource) (σ : State) :
    Tells s ((syncRepository p remote s r).run σ).1 := by
  obtain ⟨-, -, ⟨-, hresult, -⟩ | ⟨-, outcome, hresult, -⟩⟩ := syncRepository_synced p remote r s σ
  · rw [hresult]
    exact .failure _
  · rw [hresult]
    cases outcome with
    | ok available => exact .success _
    | error f => exact .failure _

private theorem settle_fits {mode : Mode} (marks : List (Found × Bool)) (σ : State)
    (hmarks : ∀ m ∈ marks, m.2 = true → mode = .updates) :
    ∀ e ∈ ((settle p remote marks).run σ).1, e.2.Fits mode e.1.1 := by
  induction marks generalizing σ with
  | nil => exact fun e he => nomatch he
  | cons m marks ih =>
    obtain ⟨f, mark⟩ := m
    have hrest := fun m hm => hmarks m (List.mem_cons_of_mem _ hm)
    intro e he
    cases mark with
    | true =>
      rcases List.mem_cons.mp he with rfl | he
      · exact .skipped (hmarks _ List.mem_cons_self rfl)
      · exact ih σ hrest e he
    | false =>
      rcases List.mem_cons.mp he with rfl | he
      · exact .synced (syncRepository_tells p remote f.1 f.2 σ)
      · exact ih _ hrest e he

/-! ### The sums -/

section Sums

variable {mode : Mode} {l : Ledger}

private theorem errors_eq (hfits : ∀ e ∈ l, e.2.Fits mode e.1.1) :
    (l.results.flatMap fun r => if r.success then [] else [r.error.getD []]) =
      l.filterMap (·.2.error?) := by
  induction l with
  | nil => rfl
  | cons e l ih =>
    have ih := ih fun x hx => hfits x (List.mem_cons_of_mem _ hx)
    obtain ⟨f, account⟩ := e
    have hfit := hfits _ List.mem_cons_self
    dsimp only at hfit
    rcases hfit with hmode | (available | reason)
    · exact ih
    · exact ih
    · exact congrArg (_ :: ·) ih

private theorem updated_eq (listed : Bool) (hfits : ∀ e ∈ l, e.2.Fits mode e.1.1) :
    (l.results.flatMap fun r => if r.success && listed && !r.unavailable then [r.name] else []) =
      if listed then (l.filter (·.2.isUpdated)).map (·.1.1.name) else [] := by
  induction l with
  | nil => cases listed <;> rfl
  | cons e l ih =>
    have ih := ih fun x hx => hfits x (List.mem_cons_of_mem _ hx)
    obtain ⟨f, account⟩ := e
    have hfit := hfits _ List.mem_cons_self
    dsimp only at hfit
    rcases hfit with hmode | (unavailable | reason)
    · exact ih
    · cases listed with
      | false => exact ih
      | true =>
        cases unavailable with
        | false => exact congrArg (_ :: ·) ih
        | true => exact ih
    · exact ih

private theorem sum_eq (hfits : ∀ e ∈ l, e.2.Fits mode e.1.1) :
    l.countP (·.2.isSkipped) + (l.filterMap (·.2.error?)).length + l.countP (·.2.isUpdated) +
      l.countP (·.2.isUnavailable) = l.length := by
  rw [List.length_filterMap_eq_countP]
  induction l with
  | nil => rfl
  | cons e l ih =>
    have ih := ih fun x hx => hfits x (List.mem_cons_of_mem _ hx)
    have hone := (hfits e List.mem_cons_self).counted_once
    simp only [List.countP_cons, List.length_cons]
    omega

end Sums

/-- A ledger of all repositories makes a report that accounts for them. -/
private theorem accounts_ofLedger {mode : Mode} {l : Ledger}
    (hlisted : l.map (·.1.2) = p.repositories) (hfits : ∀ e ∈ l, e.2.Fits mode e.1.1) :
    Accounts p mode l (.ofLedger (mode = .updates) l) := by
  have hlength : l.length = p.repositories.length := by rw [← hlisted, List.length_map]
  have herrors := errors_eq hfits
  have hupdated := updated_eq (mode = .updates) hfits
  simp only [decide_eq_true_eq] at hupdated
  have hsum := sum_eq hfits
  refine ⟨hlisted, hfits, ?_, rfl, rfl, herrors, hupdated, ?_, fun hmode => ?_, fun hmode => ?_⟩
  · exact congrArg Int.ofNat hlength
  · simp only [Progress.ofLedger, herrors]
    omega
  · simp only [Progress.ofLedger, herrors, hupdated, if_pos hmode, List.length_map,
      ← List.countP_eq_length_filter]
    omega
  · have hskipped : l.countP (·.2.isSkipped) = 0 := by
      refine List.countP_eq_zero.mpr fun e he hskip => ?_
      have hfit := hfits e he
      generalize e.2 = account at hfit hskip
      cases hfit with
      | skipped hmode' => cases hmode.symm.trans hmode'
      | synced => cases hskip
    refine ⟨congrArg Int.ofNat hskipped, hupdated.trans (if_neg fun h => ?_)⟩
    cases hmode.symm.trans h

/-- The report that the ledger of a run makes accounts for every repository. -/
theorem Plan.ledger_accounts {mode : Mode} {l : Ledger} {τ : State}
    (h : (p.ledger remote mode).run.run σ = (.ok l, τ)) :
    Accounts p mode l (.ofLedger (mode = .updates) l) := by
  obtain ⟨marks, υ, hopening, hsettle⟩ := Plan.exists_marks h
  obtain rfl : ((settle p remote marks).run υ).1 = l := congrArg Prod.fst hsettle
  have hopened := ((opening_opens p remote mode).of_run trivial hopening).2 marks rfl
  have hskipped (m) (hm : m ∈ marks) (hmark : m.2 = true) : mode = .updates := by
    cases mode with
    | full => cases hmark.symm.trans (hopened.full rfl m hm)
    | updates => rfl
  refine accounts_ofLedger p ?_ (settle_fits p remote marks υ hskipped)
  have hlines := congrArg (List.map (·.1.2)) (settle_lines p remote marks υ)
  rw [List.map_map, hopened.listed] at hlines
  exact hlines

/-- A run that fails does so in its opening, and leaves the store as it was. Any other run accounts
for every repository of its plan. -/
theorem Plan.run_accounts (mode : Mode) (σ : State) :
    match (p.run remote mode).run.run σ with
    | (.error f, τ) => ((p.opening remote mode).run.run σ).1 = .error f ∧ τ.store = σ.store
    | (.ok g, τ) => ∃ l, (p.ledger remote mode).run.run σ = (.ok l, τ) ∧ Accounts p mode l g := by
  rw [Plan.run_eq_ledger, Plan.ledger, run_bind]
  rcases hopening : (p.opening remote mode).run.run σ with ⟨f | marks, τ⟩
  · obtain ⟨haside, -⟩ := (opening_opens p remote mode).of_run trivial hopening
    exact ⟨rfl, haside.store⟩
  · have hledger : (p.ledger remote mode).run.run σ =
        (.ok ((settle p remote marks).run τ).1, ((settle p remote marks).run τ).2) := by
      rw [Plan.ledger, run_bind_ok hopening, run_lift]
    exact ⟨_, rfl, p.ledger_accounts remote hledger⟩

end ProviderCatalog.Sync
