import ProviderCatalog.Proofs.Sync.Ledger
import ProviderCatalog.Proofs.Sync.Isolation

/-!
# Histories of runs

Runs follow one another over one store. A run that updates skips the repositories whose stored
record is of the time that is reported. The time is stored with the record, before anything else of
a sync is done, and only the want of an archive removes the record again. So after any history the
stored time is that of the last sync, unless it lacked the archive; a sync that failed later leaves
its time as well.

## Main definitions

* `Launch`, `History`: runs one after the other, with the lines of their ledgers.
* `Ledger.lastSync?`: the last sync of a repository in a ledger.
* `Remembering`: what is stored about the last syncs.

## Main results

* `Synced.leaves`, `Synced.updated?_self`, `Synced.updated?_other`: the stored times after a sync.
* `History.remembering`: the stored times after a history.
* `History.skips_iff`: which repositories a run skips after a history.
* `History.skips_failed`: a repository is skipped after a sync that failed.
-/

namespace ProviderCatalog

open Store (Param Tables)

/-- The time of the update that the record of a repository is of. -/
def Store.Tables.updated? (t : Tables) (name : Text) : Option Text :=
  (t.row? name).bind (·.value.lastUpdated)

namespace Sync

variable {s : Remote.Summary} {t t' : Tables} {id : Int} {result : Except Failure Bool}
  {order : List Store.Operation} {name : Text} {l l' : Ledger} {σ τ : State}

/-! ### What is looked up can be stored -/

/-- The record of a repository that was looked up can be stored where all operations are in
order. -/
theorem Recordable.of_unicode (h : s.Unicode) : Recordable s [] := by
  refine ⟨rfl, rfl, ?_⟩
  refine Param.bind_eq_ok_iff.mpr fun x hx => ?_
  simp only [Param.ofRepository, RepositoryRecord.ofSummary, List.mem_cons, List.not_mem_nil,
    or_false] at hx
  rcases hx with rfl | rfl | rfl | rfl | rfl | rfl
  · exact Param.text_fits_iff.mpr h.name
  · exact Param.text_fits_iff.mpr h.fullName
  · exact Param.ofText?_fits_iff.mpr h.description
  · exact Param.text_fits_iff.mpr h.pageUrl
  · exact Param.text_fits_iff.mpr h.updatedAt
  · rfl

/-! ### The stored time -/

/-- The time that a sync with a result leaves with the record: none if it removed the record. -/
def leftTime (s : Remote.Summary) (r : RepositoryResult) : Option Text :=
  if r.unavailable then none else some s.updatedAt

/-- A repository is up to date where the stored time is the one that is reported. -/
theorem isUpToDate_readRecord : isUpToDate s ((t.row? s.name).map Store.readRecord) = true ↔
    t.updated? s.name = some s.updatedAt := by
  rw [Tables.updated?, isUpToDate]
  cases t.row? s.name with
  | none => exact ⟨nofun, nofun⟩
  | some r => exact beq_iff_eq

private theorem updated?_putRepository {readme : Option Text}
    (h : t.putRepository (.ofSummary s readme) = .ok (t', id)) :
    t'.updated? s.name = some s.updatedAt := by
  have hrow := (Tables.row?_putRepository h).1
  change t'.row? s.name = _ at hrow
  rw [Tables.updated?, hrow, Option.bind_some]
  cases t.row? (RepositoryRecord.ofSummary s readme).name <;> rfl

private theorem Works.updated? (h : Works s id t t') (ht : t.updated? s.name = some s.updatedAt) :
    t'.updated? s.name = some s.updatedAt := by
  induction h with
  | refl => exact ht
  | tail _ h ih =>
    cases h with
    | clear h =>
      rw [Tables.updated?, Tables.row?_congr (Tables.repositories_clearRepository h)]
      exact ih
    | readme h => exact updated?_putRepository h
    | fill h =>
      rw [Tables.updated?, Tables.row?_congr h.touched.repositories]
      exact ih

/-- A sync whose record cannot be stored changes nothing. Any other leaves the time that was
reported, whether it fails or not, or removes the record for the want of an archive. -/
theorem Synced.leaves (h : Synced s order t result t') (ht : t.Valid) :
    (¬Recordable s order ∧ ∃ f, result = .error f) ∨
      (t'.updated? s.name = some s.updatedAt ∧
        (result = .ok false → order.contains .deleteRepository = true)) ∨
      (t'.row? s.name = none ∧ result = .ok false) := by
  cases h with
  | unrecorded h => exact .inl ⟨h, _, rfl⟩
  | recorded hput hworks hresult =>
    exact .inr (.inl ⟨Works.updated? hworks (updated?_putRepository hput), (absurd · hresult)⟩)
  | dropped hput hworks hdelete =>
    have hvalid := Works.valid hworks (ht.putRepository hput)
    have hnumbered := Works.numbered hworks (Tables.numbered_putRepository hput)
    exact .inr (.inr ⟨hvalid.row?_deleteRepository hdelete hnumbered, rfl⟩)
  | kept hput hworks horder =>
    exact .inr (.inl ⟨Works.updated? hworks (updated?_putRepository hput), fun _ => horder⟩)

/-- A sync whose record can be stored leaves the time that was reported, whether it fails or not,
unless it lacks the archive. -/
theorem Synced.updated?_self (h : Synced s [] t result t') (ht : t.Valid)
    (hs : Recordable s []) : t'.updated? s.name = leftTime s (told s result) := by
  rcases h.leaves ht with ⟨hnot, -⟩ | ⟨htime, hkept⟩ | ⟨hgone, rfl⟩
  · exact absurd hs hnot
  · rw [htime]
    rcases result with f | ⟨_ | _⟩
    · rfl
    · exact nomatch hkept rfl
    · rfl
  · rw [Tables.updated?, hgone]
    rfl

theorem Synced.updated?_other (h : Synced s order t result t') (ht : t.Valid)
    (hname : name ≠ s.name) : t'.updated? name = t.updated? name := by
  rw [Tables.updated?, h.row?_other ht hname, Tables.updated?]

/-! ### The last sync -/

/-- The syncs of a ledger with their results, in order. -/
def Ledger.syncs (l : Ledger) : List (Remote.Summary × RepositoryResult) :=
  l.filterMap fun e => e.2.result?.map (e.1.1, ·)

/-- The last sync of the repository with a name. -/
def Ledger.lastSync? (l : Ledger) (name : Text) : Option (Remote.Summary × RepositoryResult) :=
  l.syncs.reverse.find? (·.1.name == name)

/-- The last sync of a repository was of the time that is reported, and ended with its archive. -/
def Ledger.Justifies (l : Ledger) (s : Remote.Summary) : Prop :=
  ∃ s' r, l.lastSync? s.name = some (s', r) ∧ s'.updatedAt = s.updatedAt ∧
    r.success = true ∧ r.unavailable = false

/-- The last sync of a repository was of the time that is reported, and failed. -/
def Ledger.FailedAt (l : Ledger) (s : Remote.Summary) : Prop :=
  ∃ s' r, l.lastSync? s.name = some (s', r) ∧ s'.updatedAt = s.updatedAt ∧ r.success = false

theorem Ledger.Justifies.not_failedAt (h : l.Justifies s) : ¬l.FailedAt s := by
  rintro ⟨s', r, hlast, -, hfailed⟩
  obtain ⟨s'', r', hlast', -, hsuccess, -⟩ := h
  cases hlast.symm.trans hlast'
  exact nomatch hfailed.symm.trans hsuccess

theorem syncs_append (l l' : Ledger) : (l ++ l').syncs = l.syncs ++ l'.syncs :=
  List.filterMap_append

theorem lastSync?_append (l l' : Ledger) (name : Text) :
    (l ++ l').lastSync? name = (l'.lastSync? name).or (l.lastSync? name) := by
  rw [Ledger.lastSync?, syncs_append, List.reverse_append, List.find?_append]
  rfl

/-- A ledger of syncs, and a store in order with all locks free, in which every record is of the
time that the last of these syncs left. -/
structure Remembering (l : Ledger) (σ : State) : Prop where
  tells : ∀ x ∈ l.syncs, Tells x.1 x.2
  locks : σ.locks = .empty
  outOfOrder : σ.store.outOfOrder = []
  tables : ∃ t, σ.store.tables = some t ∧ Proper t ∧
    ∀ name, t.updated? name = (l.lastSync? name).bind fun x => leftTime x.1 x.2

theorem Remembering.aside (h : Remembering l σ) (haside : Aside σ τ) : Remembering l τ :=
  ⟨h.tells, haside.locks.trans h.locks, haside.store ▸ h.outOfOrder, haside.store ▸ h.tables⟩

/-- A sync is remembered as the last one of its repository. -/
theorem Remembering.sync (h : Remembering l σ) (p : Plan) (remote : Remote) {f : Found}
    (hf : f.1.Unicode) :
    Remembering (l ++ [(f, .synced ((syncRepository p remote f.1 f.2).run σ).1)])
      ((syncRepository p remote f.1 f.2).run σ).2 := by
  obtain ⟨t, ht, hproper, hremembered⟩ := h.tables
  obtain ⟨hlocks, horder, ⟨hheld, -⟩ | ⟨-, outcome, hresult, hsynced⟩⟩ :=
    syncRepository_synced p remote f.2 f.1 σ
  · rw [h.locks] at hheld
    exact nomatch hheld
  · obtain ⟨t', ht', hsynced⟩ := hsynced t ht
    rw [h.outOfOrder] at hsynced
    refine ⟨fun x hx => ?_, hlocks.trans h.locks, horder.trans h.outOfOrder, t', ht',
      hsynced.proper hproper, fun name => ?_⟩
    · rw [syncs_append] at hx
      rcases List.mem_append.mp hx with hx | hx
      · exact h.tells x hx
      · cases List.mem_singleton.mp hx
        exact syncRepository_tells p remote f.1 f.2 σ
    rw [lastSync?_append, hresult]
    by_cases hname : name = f.1.name
    · have hlast : Ledger.lastSync? [(f, .synced (told f.1 outcome))] name =
          some (f.1, told f.1 outcome) :=
        List.find?_cons_of_pos (beq_iff_eq.mpr hname.symm)
      rw [hlast, Option.some_or, Option.bind_some, hname]
      exact hsynced.updated?_self hproper.valid (.of_unicode hf)
    · have hlast : Ledger.lastSync? [(f, .synced (told f.1 outcome))] name = none :=
        List.find?_cons_of_neg fun h => hname (beq_iff_eq.mp h).symm
      rw [hlast, Option.none_or, hsynced.updated?_other hproper.valid hname]
      exact hremembered name

/-- A repository that is skipped is remembered as before. -/
theorem Remembering.skip (h : Remembering l σ) (f : Found) :
    Remembering (l ++ [(f, .skipped)]) σ := by
  obtain ⟨t, ht, hproper, hremembered⟩ := h.tables
  refine ⟨fun x hx => ?_, h.locks, h.outOfOrder, t, ht, hproper, fun name => ?_⟩
  · rw [syncs_append] at hx
    exact h.tells x (List.append_nil l.syncs ▸ hx)
  · rw [lastSync?_append]
    exact hremembered name

theorem Remembering.settle (h : Remembering l σ) (p : Plan) (remote : Remote)
    {marks : List (Found × Bool)} (hunicode : ∀ m ∈ marks, m.1.1.Unicode) :
    Remembering (l ++ ((settle p remote marks).run σ).1) ((settle p remote marks).run σ).2 := by
  induction marks generalizing l σ with
  | nil =>
    change Remembering (l ++ []) σ
    rwa [List.append_nil]
  | cons m marks ih =>
    obtain ⟨f, mark⟩ := m
    obtain ⟨hf, hmarks⟩ := List.forall_mem_cons.mp hunicode
    cases mark with
    | true =>
      have hrest := ih (h.skip f) hmarks
      rw [List.append_assoc] at hrest
      exact hrest
    | false =>
      have hrest := ih (h.sync p remote hf) hmarks
      rw [List.append_assoc] at hrest
      exact hrest

/-! ### Histories -/

/-- A run of a plan in a session of its own. -/
structure Launch where
  plan : Plan
  remote : Remote
  mode : Mode
  session : Remote.Session

namespace Launch

/-- The state that a launch starts from, in its own session. -/
def before (x : Launch) (σ : State) : State := { σ with session := x.session }

/-- The run of a launch after what was done before. -/
def run (x : Launch) (σ : State) : Except RunFailure Progress × State :=
  (x.plan.run x.remote x.mode).run.run (x.before σ)

/-- The ledger of that run, without lines if the run fails. -/
def ledger (x : Launch) (σ : State) : Ledger :=
  match ((x.plan.ledger x.remote x.mode).run.run (x.before σ)).1 with
  | .ok l => l
  | .error _ => []

end Launch

/-- What runs did one after the other. -/
structure History where
  /-- The state that the last of them left. -/
  state : State
  /-- The lines of their ledgers, in order. -/
  lines : Ledger

namespace History

/-- No runs so far: a store without rows, and all locks free. -/
def start (session : Remote.Session) : History := ⟨⟨session, .ready, .empty, []⟩, []⟩

/-- A run more. -/
def after (h : History) (x : Launch) : History :=
  ⟨(x.run h.state).2, h.lines ++ x.ledger h.state⟩

/-- The history of some runs. -/
def ofLaunches (session : Remote.Session) (launches : List Launch) : History :=
  launches.foldl after (start session)

end History

/-- A run that fails does so in its opening. Any other settles what was marked there. -/
private theorem Launch.run_eq (x : Launch) (σ : State) :
    match (x.plan.opening x.remote x.mode).run.run (x.before σ) with
    | (.error f, τ) => x.run σ = (.error f, τ) ∧ x.ledger σ = []
    | (.ok marks, τ) => x.ledger σ = ((settle x.plan x.remote marks).run τ).1 ∧
        x.run σ = (.ok (.ofLedger (x.mode = .updates) (x.ledger σ)),
          ((settle x.plan x.remote marks).run τ).2) := by
  rw [Launch.run, Plan.run_eq_ledger, Launch.ledger, Plan.ledger, run_bind]
  rcases (x.plan.opening x.remote x.mode).run.run (x.before σ) with ⟨f | marks, τ⟩
  · exact ⟨rfl, rfl⟩
  · exact ⟨rfl, rfl⟩

theorem Remembering.launch (h : Remembering l σ) (x : Launch) :
    Remembering (l ++ x.ledger σ) (x.run σ).2 := by
  have h : Remembering l (x.before σ) := h.aside ⟨rfl, rfl⟩
  have hrun := x.run_eq σ
  rcases hopening : (x.plan.opening x.remote x.mode).run.run (x.before σ) with ⟨f | marks, τ⟩
  · rw [hopening] at hrun
    obtain ⟨haside, -⟩ := (opening_opens x.plan x.remote x.mode).of_run trivial hopening
    rw [hrun.1, hrun.2, List.append_nil]
    exact h.aside haside
  · rw [hopening] at hrun
    obtain ⟨haside, hopened⟩ := (opening_opens x.plan x.remote x.mode).of_run trivial hopening
    rw [hrun.2, hrun.1]
    exact (h.aside haside).settle _ _ (hopened marks rfl).unicode

/-- After any history the store remembers the last sync of every repository. -/
theorem History.remembering (session : Remote.Session) (launches : List Launch) :
    Remembering (ofLaunches session launches).lines (ofLaunches session launches).state := by
  have hstart : Remembering (start session).lines (start session).state :=
    ⟨nofun, rfl, rfl, .empty, rfl, ⟨.empty, .empty⟩, fun _ => rfl⟩
  rw [ofLaunches]
  generalize start session = h at hstart
  induction launches generalizing h with
  | nil => exact hstart
  | cons x launches ih => exact ih _ (hstart.launch x)

/-- A repository is up to date where its last sync was of the time that is reported, and did not
remove the record: where it ended with the archive, or failed. -/
private theorem Remembering.isUpToDate_iff (h : Remembering l σ) (hs : s.Unicode)
    {stored : Option RepositoryRecord} (hstored : σ.store.repository? s.name = .ok stored) :
    isUpToDate s stored = true ↔ l.Justifies s ∨ l.FailedAt s := by
  obtain ⟨t, ht, -, hremembered⟩ := h.tables
  have hrecordable : Recordable s σ.store.outOfOrder := h.outOfOrder ▸ .of_unicode hs
  cases Except.ok.inj (hstored.symm.trans (hrecordable.reads ht))
  rw [isUpToDate_readRecord, hremembered, Option.bind_eq_some_iff]
  constructor
  · rintro ⟨⟨s', r⟩, hlast, hleft⟩
    have htells : Tells s' r :=
      h.tells (s', r) (List.mem_reverse.mp (List.mem_of_find?_eq_some hlast))
    rcases htells with (_ | _) | reason
    · exact .inl ⟨s', _, hlast, Option.some.inj hleft, rfl, rfl⟩
    · exact nomatch hleft
    · exact .inr ⟨s', _, hlast, Option.some.inj hleft, rfl⟩
  · rintro (⟨s', r, hlast, hupdated, -, havailable⟩ | ⟨s', r, hlast, hupdated, hfailed⟩)
    · refine ⟨(s', r), hlast, ?_⟩
      rw [leftTime, havailable, hupdated]
      rfl
    · have htells : Tells s' r :=
        h.tells (s', r) (List.mem_reverse.mp (List.mem_of_find?_eq_some hlast))
      cases htells with
      | success => exact nomatch hfailed
      | failure => exact ⟨_, hlast, congrArg some hupdated⟩

namespace History

/-- A run after any history skips repositories only if it updates, and then just those whose last
sync was of the time that is reported and ended with the archive, or failed. -/
private theorem skipped_iff (session : Remote.Session) (launches : List Launch) (x : Launch) :
    let h := ofLaunches session launches
    ∀ line ∈ x.ledger h.state, line.2 = .skipped ↔ x.mode = .updates ∧
      (h.lines.Justifies line.1.1 ∨ h.lines.FailedAt line.1.1) := by
  intro h line hline
  have hrun := x.run_eq h.state
  rcases hopening : (x.plan.opening x.remote x.mode).run.run (x.before h.state) with ⟨f | marks, τ⟩
  · rw [hopening] at hrun
    rw [hrun.2] at hline
    exact nomatch hline
  · rw [hopening] at hrun
    obtain ⟨haside, hopened⟩ := (opening_opens x.plan x.remote x.mode).of_run trivial hopening
    have hopened := hopened marks rfl
    have hremembering : Remembering h.lines τ :=
      Remembering.aside (σ := x.before h.state) ((remembering session launches).aside ⟨rfl, rfl⟩)
        haside
    have hmark : (line.1, line.2.isSkipped) ∈ marks := by
      rw [← settle_lines x.plan x.remote marks τ, ← hrun.1]
      exact List.mem_map_of_mem (f := fun e : Found × Account => (e.1, e.2.isSkipped)) hline
    have hskipped : line.2 = .skipped ↔ line.2.isSkipped = true := by
      cases line.2 with
      | skipped => exact ⟨fun _ => rfl, fun _ => rfl⟩
      | synced r => exact ⟨nofun, nofun⟩
    rw [hskipped]
    cases hmode : x.mode with
    | full =>
      have hunmarked : line.2.isSkipped = false := hopened.full hmode _ hmark
      rw [hunmarked]
      exact ⟨nofun, nofun⟩
    | updates =>
      obtain ⟨stored, hstored, hmarked⟩ := hopened.updates hmode _ hmark
      replace hmarked : line.2.isSkipped = isUpToDate line.1.1 stored := hmarked
      rw [hmarked, hremembering.isUpToDate_iff (hopened.unicode _ hmark) hstored, and_iff_right rfl]

/-- After any history, an updating run skips just the repositories whose last sync was of the time
that is reported and ended with the archive, or failed. So whatever a run skips was brought up to
date before if and only if none of its repositories failed at that time. -/
theorem skips_iff (session : Remote.Session) (launches : List Launch) (x : Launch) :
    let h := ofLaunches session launches
    let ledger := x.ledger h.state
    (∀ g τ, x.run h.state = (.ok g, τ) → g.skipped = ledger.countP (·.2.isSkipped)) ∧
      (∀ line ∈ ledger, line.2 = .skipped ↔ x.mode = .updates ∧
        (h.lines.Justifies line.1.1 ∨ h.lines.FailedAt line.1.1)) ∧
      ((∀ line ∈ ledger, line.2 = .skipped → h.lines.Justifies line.1.1) ↔
        (x.mode = .updates → ∀ line ∈ ledger, ¬h.lines.FailedAt line.1.1)) := by
  intro h ledger
  have hskips := skipped_iff session launches x
  refine ⟨fun g τ hg => ?_, hskips, fun hjustified hmode line hline hfailed => ?_,
    fun hnever line hline hskipped => ?_⟩
  · have hrun := x.run_eq h.state
    rcases hopening : (x.plan.opening x.remote x.mode).run.run (x.before h.state)
      with ⟨f | marks, υ⟩
    · rw [hopening] at hrun
      exact nomatch hg.symm.trans hrun.1
    · rw [hopening] at hrun
      cases hg.symm.trans hrun.2
      rfl
  · have hskipped := (hskips line hline).mpr ⟨hmode, .inr hfailed⟩
    exact (hjustified line hline hskipped).not_failedAt hfailed
  · obtain ⟨hmode, hjustified | hfailed⟩ := (hskips line hline).mp hskipped
    · exact hjustified
    · exact absurd hfailed (hnever hmode line hline)

/-- The document of the summary of a repository. -/
def describedDocument : Bytes :=
  "\x7b\"name\":\"x\",\"full_name\":\"a/x\",\"size\":1\x7d".toList.map fun c => UInt8.ofNat c.toNat

/-- The launch of a run of a plan of one repository, of which there is a summary and nothing else:
the first request is answered with it, and later ones with an error. -/
def describedLaunch (mode : Mode) : Launch where
  plan := ⟨.make none none, [⟨"a/x", none, true⟩], 1, "CHANGELOG.md", 1, 1, []⟩
  remote := fun sent _ => .response
    (if sent.isEmpty then ⟨200, none, describedDocument⟩ else ⟨500, none, []⟩)
  mode := mode
  session := ⟨.full 9 1 0, 0, .empty 1, 0, []⟩

set_option maxRecDepth 100000 in
/-- A repository whose sync failed because its archive was refused is skipped by the next updating
run. -/
theorem skips_failed :
    let launch := describedLaunch .full
    let h := ofLaunches launch.session [launch]
    ¬∀ line ∈ (describedLaunch .updates).ledger h.state,
      line.2 = .skipped → h.lines.Justifies line.1.1 := by
  intro launch h hjustified
  obtain ⟨line, hline, hskipped, hname⟩ : ∃ line ∈ (describedLaunch .updates).ledger h.state,
      line.2 = .skipped ∧ (h.lines.lastSync? line.1.1.name).map (·.2.success) = some false := by
    decide +kernel
  obtain ⟨s, r, hlast, -, hsuccess, -⟩ := hjustified line hline hskipped
  rw [hlast] at hname
  exact nomatch hsuccess.symm.trans (Option.some.inj hname)

end History

end Sync

end ProviderCatalog
