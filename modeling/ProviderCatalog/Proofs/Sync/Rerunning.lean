import ProviderCatalog.Proofs.Remote.Sharing
import ProviderCatalog.Proofs.Sync.Fetching
import ProviderCatalog.Proofs.Sync.Repeating
import ProviderCatalog.Sync.Job

/-!
# Full runs one after the other

A full run reaches its session through nothing but the exchanges of its client. So two full jobs
with one shared cache go through exchanges of one session, and no document that the first one was
answered with success is asked for again by the second one before it expires. Jobs only share a
cache that holds something, though: one that is empty when the first job starts stays empty.

## Main definitions

* `Visited`: the sessions before and after exchanges of a client.
* `Asks`, `Visiting`: actions and steps that reach their sessions by exchanges.
* `Jobs.withClocks`: the jobs at other readings of the clocks.

## Main results

* `Plan.runFull_visiting`: a full run reaches its session by exchanges.
* `Jobs.full_twice`: two full jobs with a shared cache.
* `sharedCache_serves`: clients and jobs that share a cache.
* `emptyCache_serves_nobody`: two jobs with an empty shared cache.
-/

namespace ProviderCatalog.Sync

open ProviderCatalog.Configuration (RepositorySource Settings)
open Remote (Call Client Company Deed Exchange Exchanged Exchanging Question Session Visits)
open Schema (Attribute Resource Service)

/-- The sessions before and after exchanges of a client. -/
def Visited (c : Client) (remote : Remote) (σ τ : State) : Prop :=
  ∃ es, Visits c remote σ.session es τ.session

instance (c : Client) (remote : Remote) : Std.Refl (Visited c remote) := ⟨fun _ => ⟨[], .nil⟩⟩

instance (c : Client) (remote : Remote) : IsTrans State (Visited c remote) :=
  ⟨fun _ _ _ ⟨_, h⟩ ⟨_, h'⟩ => ⟨_, h.append h'⟩⟩

section Parts

variable {α β ε : Type} {c : Client} {remote : Remote} {σ τ : State}

theorem Visited.of_session (h : τ.session = σ.session) : Visited c remote σ τ :=
  ⟨[], h ▸ .nil⟩

/-- An action that reaches its session by exchanges. -/
def Asks (c : Client) (remote : Remote) (x : StateM State α) : Prop :=
  ∀ σ, Visited c remote σ (x.run σ).2

/-- A step that reaches its session by exchanges. -/
abbrev Visiting (c : Client) (remote : Remote) (x : ExceptT ε (StateM State) α) : Prop :=
  Leads (Visited c remote) (fun _ => True) x fun _ _ => True

/-! ### Actions -/

namespace Asks

variable {x : StateM State α} {f : α → StateM State β}

theorem of_session (h : ∀ σ, (x.run σ).2.session = σ.session) : Asks c remote x :=
  fun σ => .of_session (h σ)

protected theorem bind (hx : Asks c remote x) (hf : ∀ a, Asks c remote (f a)) :
    Asks c remote (x >>= f) :=
  fun σ => IsTrans.trans _ _ _ (hx σ) (hf _ _)

protected theorem asking {call : Call α} {P : List Exchange → Prop}
    (h : Exchanging c remote call P) : Asks c remote (asking call) := by
  intro σ
  obtain ⟨es, fault?, -, hpasses, -⟩ := h σ.session
  exact ⟨es, hpasses.visits⟩

protected theorem reading (f : Store → Except Store.Fault α) : Asks c remote (reading f) :=
  .of_session fun _ => rfl

protected theorem writing (f : Store → Except Store.Fault (Store × α)) :
    Asks c remote (writing f) := by
  refine .of_session fun σ => ?_
  rw [run_writing]
  rcases f σ.store with _ | ⟨_, _⟩ <;> rfl

protected theorem updating (f : Store → Except Store.Fault Store) : Asks c remote (updating f) :=
  .writing _

/-- A warning does not matter. -/
protected theorem softly (about : Text) {x : Step α} (h : Visiting c remote x) :
    Asks c remote (softly about x) := by
  intro σ
  have hx := (h σ trivial).1
  rw [run_softly]
  generalize x.run.run σ = run at hx
  obtain ⟨_ | _, τ⟩ := run <;> exact hx

end Asks

namespace Visiting

variable {x : StateM State (Except ε α)}

protected theorem lift {x : StateM State α} (h : Asks c remote x) :
    Visiting c remote (liftM x : ExceptT ε (StateM State) α) :=
  Leads.lift fun σ _ => ⟨h σ, trivial⟩

protected theorem orFail (failure : ε → Failure) (h : Asks c remote x) :
    Visiting c remote (orFail failure x) := by
  intro σ _
  have hx := h σ
  rw [run_orFail]
  generalize x.run σ = run at hx
  obtain ⟨_ | _, τ⟩ := run <;> exact ⟨hx, fun _ _ => trivial⟩

protected theorem orWarn (about : Text) {x : StateM State (Except Store.Fault α)}
    (h : Asks c remote x) : Visiting c remote (orWarn about x) := by
  intro σ _
  have hx := h σ
  rw [run_orWarn]
  generalize x.run σ = run at hx
  obtain ⟨f | _, τ⟩ := run
  · dsimp only
    split <;> exact ⟨hx, fun _ _ => trivial⟩
  · exact ⟨hx, fun _ _ => trivial⟩

end Visiting

/-! ### The steps of a sync -/

theorem storeRecord_visiting (s : Remote.Summary) : Visiting c remote (storeRecord s) := by
  intro σ _
  obtain ⟨result, store, lines, hrun⟩ := storeRecord_local s σ.store
  have hσ : (storeRecord s).run.run σ = (result, ⟨σ.session, store, σ.locks, σ.log ++ lines⟩) :=
    hrun σ.session σ.locks σ.log
  rw [hσ]
  exact ⟨.of_session rfl, fun _ _ => trivial⟩

theorem storeFiles_visiting (id : Int) (data : Bytes) :
    Visiting c remote (storeFiles id data) := by
  intro σ _
  rw [run_storeFiles]
  exact ⟨.of_session rfl, fun _ _ => trivial⟩

theorem indexServices_visiting (id : Int) (links : ServiceLinks) (ss : List Service) :
    Visiting c remote (indexServices id links ss) := by
  induction ss generalizing links with
  | nil => exact .pure fun _ _ => trivial
  | cons s ss ih =>
    refine .bind (Visiting.orWarn _ (.writing _)) fun id? => ?_
    split
    · exact ih _
    · exact ih links

theorem indexAttributes_visiting (n : Int) (resource : Text) (as : List Attribute) :
    Visiting c remote (indexAttributes n resource as) := by
  induction as with
  | nil => exact .pure fun _ _ => trivial
  | cons a as ih => exact .bind (Visiting.orWarn _ (.updating _)) fun _ => ih

theorem indexResource_visiting (id : Int) (links : ServiceLinks) (r : Resource) :
    Visiting c remote (indexResource id links r) := by
  refine .bind (Visiting.orWarn _ (.writing _)) fun id? => ?_
  split
  · exact .pure fun _ _ => trivial
  · refine .bind (indexAttributes_visiting _ _ _) fun _ => ?_
    split
    · exact .pure fun _ _ => trivial
    · exact .bind (Visiting.orWarn _ (.updating _)) fun _ => .pure fun _ _ => trivial

theorem indexResources_visiting (id : Int) (links : ServiceLinks) (rs : List Resource) :
    Visiting c remote (indexResources id links rs) := by
  induction rs with
  | nil => exact .pure fun _ _ => trivial
  | cons r rs ih => exact .bind (indexResource_visiting id links r) fun _ => ih

theorem indexDefinitions_visiting (id : Int) (resourcePrefix : Text) :
    Visiting c remote (indexDefinitions id resourcePrefix) := by
  have hlog (messages : List Text) : Visiting c remote
      (liftM (logging .warning messages) : Step Unit) := Visiting.lift (.of_session fun _ => rfl)
  refine .bind (Visiting.orFail _ (.reading _)) fun files => ?_
  split
  · exact .throw _
  · refine .bind (hlog _) fun _ => ?_
    split
    · exact .throw _
    · refine .bind (indexServices_visiting id [] _) fun links => .bind (hlog _) fun _ => ?_
      split
      · exact .throw _
      · exact .bind (indexResources_visiting id links _) fun _ => .pure fun _ _ => trivial

theorem storeReleases_visiting (id : Int) (resourcePrefix : Text)
    (releases : List (Changelog.Release × Changelog.ReleaseRecord)) :
    Visiting c remote (storeReleases id resourcePrefix releases) := by
  induction releases with
  | nil => exact .pure fun _ _ => trivial
  | cons x releases ih =>
    have hone : Visiting c remote (storeRelease id resourcePrefix x.1 x.2) := by
      refine .bind (Visiting.orFail _ (.writing _)) fun n => ?_
      split
      · exact .throw _
      · exact Visiting.orFail _ (.updating _)
    exact .bind hone fun _ => ih

end Parts

/-! ### Syncs -/

section Syncs

variable (p : Plan) (remote : Remote) (s : Remote.Summary) (r : RepositorySource)

theorem captureReleases_visiting (id : Int) (resourcePrefix : Text) :
    Visiting p.client remote (captureReleases p remote id s resourcePrefix) := by
  have htags : Visiting p.client remote (listTags p remote s.fullName) := by
    refine .bind (Visiting.lift (.asking (p.client.tags_exchanging remote _ _))) fun listing => ?_
    split
    · exact .pure fun _ _ => trivial
    · split
      · exact .bind (Visiting.lift (.of_session fun _ => rfl)) fun _ => .pure fun _ _ => trivial
      · exact .throw _
  refine .bind (Visiting.orFail _ (.reading _)) fun file => ?_
  split
  · exact .throw _
  · rename_i changelog
    have hrest : Visiting p.client remote (do
        let tags ← listTags p remote s.fullName
        let releases := Changelog.read p.releaseLimit changelog.content
        let records := Changelog.chain s.fullName (tagCommits tags) releases
        storeReleases id resourcePrefix (releases.zip records)
        return records.length) :=
      .bind htags fun _ => .bind (storeReleases_visiting _ _ _) fun _ => .pure fun _ _ => trivial
    dsimp only
    split
    · exact .bind (.throw _) fun _ => hrest
    · exact hrest

theorem fillFrom_visiting (id : Int) (data : Bytes) :
    Visiting p.client remote (fillFrom p remote s r id data) := by
  refine .bind (storeFiles_visiting id data) fun _ => ?_
  refine .bind (Visiting.lift (.softly _ (indexDefinitions_visiting id _))) fun _ => ?_
  exact .bind (Visiting.lift (.softly _ (captureReleases_visiting p remote s id _))) fun _ =>
    .pure fun _ _ => trivial

theorem syncSteps_visiting : Visiting p.client remote (syncSteps p remote s r) := by
  have hreadme : Visiting p.client remote (storeReadme p remote s) :=
    .bind (Visiting.orFail _ (.asking (p.client.readme_exchanging remote _))) fun _ =>
      .bind (Visiting.orFail _ (.writing _)) fun _ => .pure fun _ _ => trivial
  have hdrop (id : Int) : Visiting p.client remote (dropRecord s id) :=
    .bind (Visiting.orWarn _ (.updating _)) fun _ => .pure fun _ _ => trivial
  refine .bind (storeRecord_visiting s) fun id => ?_
  refine .bind (Visiting.lift (.softly _ hreadme)) fun _ => ?_
  refine .bind (Visiting.lift (.asking (p.client.archive_exchanging remote _))) fun answer => ?_
  split
  · exact .bind (hdrop id) fun _ => .pure fun _ _ => trivial
  · exact .throw _
  · exact fillFrom_visiting p remote s r id _

theorem syncRepository_asks : Asks p.client remote (syncRepository p remote s r) := by
  intro σ
  cases h : σ.locks.isHeld s.fullName with
  | true =>
    rw [syncRepository_held p remote r h]
    exact .of_session rfl
  | false =>
    rw [syncRepository_free p remote r h]
    exact (syncSteps_visiting p remote s r { σ with locks := ⟨s.fullName :: σ.locks.held⟩ }
      trivial).1

theorem syncAll_asks (listed : Bool) (progress : Progress) (found : List Found) :
    Asks p.client remote (syncAll p remote listed progress found) := by
  induction found generalizing progress with
  | nil => exact .of_session fun _ => rfl
  | cons f found ih => exact .bind (syncRepository_asks p remote f.1 f.2) fun _ => ih _

theorem lookUp_visiting (rs : List RepositorySource) :
    Visiting p.client remote (lookUp p remote rs) := by
  induction rs with
  | nil => exact .pure fun _ _ => trivial
  | cons r rs ih =>
    have hone : Visiting p.client remote (lookUpOne p remote r) := by
      refine .bind (Visiting.lift (.asking (p.client.summary_exchanging remote _))) fun answer => ?_
      split
      · exact .throw _
      · split
        · exact .throw _
        · exact .pure fun _ _ => trivial
    exact .bind hone fun _ => .bind ih fun _ => .pure fun _ _ => trivial

/-- A full run reaches its session by exchanges. -/
theorem Plan.runFull_visiting : Visiting p.client remote (p.runFull remote) :=
  .bind (lookUp_visiting p remote p.repositories) fun found =>
    Visiting.lift (syncAll_asks p remote false _ found)

end Syncs

/-! ### Jobs -/

namespace Jobs

/-- The jobs at other readings of the clocks. -/
def withClocks (j : Jobs) (limiter cache : Rat) : Jobs :=
  { j with state := { j.state with session :=
      { j.state.session with limiterTime := limiter, cacheTime := cache } } }

/-- The session that the next job starts from. -/
def nextSession (j : Jobs) : Session := { j.state.session with cache := j.nextCache }

variable (j : Jobs) (remote : Remote) (mode : Mode) (seconds : Binary64)

/-- A full job goes through exchanges, from the cache that it is given on. -/
theorem run_visits : ∃ es, Visits j.client remote j.nextSession es
    (j.run remote .full seconds).2.state.session :=
  (Plan.runFull_visiting (.ofSettings j.settings j.client j.repositories) remote
    { j.state with session := j.nextSession } trivial).1

private theorem run_shared_eq : (j.run remote mode seconds).2.shared =
    if j.sharesCache then (j.run remote mode seconds).2.state.session.cache else j.shared := rfl

variable {j}

theorem nextCache_of_shared (h : j.shared.entries ≠ []) : j.nextCache = j.shared := by
  rw [nextCache, Remote.adoptedCache?_some, if_neg h]
  rfl

theorem run_shared (h : j.shared.entries ≠ []) :
    (j.run remote mode seconds).2.shared = (j.run remote mode seconds).2.state.session.cache := by
  have hshares : j.sharesCache = true := by
    rw [sharesCache, Remote.adoptedCache?_some, if_neg h]
    rfl
  exact (run_shared_eq j remote mode seconds).trans (if_pos hshares)

/-- Two full jobs share a cache that holds something. No document that the first job was answered
with success is asked for again by the second one, which gets it from the cache, as long as it is
not expired. -/
theorem full_twice (hshared : j.shared.entries ≠ []) (remote' : Remote) (seconds' : Binary64)
    (limiterTime : Rat) {cacheTime : Rat} (hclock : j.state.session.cacheTime ≤ cacheTime)
    (hlater : cacheTime < j.state.session.cacheTime + j.shared.lifetime) :
    let first := (j.run remote .full seconds).2.withClocks limiterTime cacheTime
    let second := (first.run remote' .full seconds').2
    ∃ es es', Visits j.client remote j.nextSession es (j.run remote .full seconds).2.state.session ∧
      Visits j.client remote' first.nextSession es' second.state.session ∧
      ∀ e ∈ es, ∀ body, e.kept? = some body →
        ∀ e' ∈ es', e'.way = .document → e'.url = e.url → e'.outcome = .cached body := by
  intro first second
  obtain ⟨es, hfirst⟩ := run_visits j remote seconds
  obtain ⟨es', hsecond⟩ := run_visits first remote' seconds'
  refine ⟨es, es', hfirst, hsecond, fun e he body hkept => ?_⟩
  have hcache : j.nextSession.cache = j.shared := nextCache_of_shared hshared
  have hnow : j.state.session.cacheTime < j.state.session.cacheTime + j.shared.lifetime :=
    Rat.not_le.mp fun h => Rat.not_le.mpr hlater (Rat.le_trans h hclock)
  have hholds : (j.run remote .full seconds).2.state.session.cache.Holds e.url body
      (j.state.session.cacheTime + j.shared.lifetime) := by
    have hholds := hfirst.holds_of_kept he hkept (hcache ▸ hnow)
    rwa [hcache] at hholds
  have hfirstShared : first.shared = (j.run remote .full seconds).2.state.session.cache :=
    run_shared remote .full seconds hshared
  have hnext : first.nextSession.cache = (j.run remote .full seconds).2.state.session.cache := by
    refine (nextCache_of_shared fun hempty => ?_).trans hfirstShared
    obtain ⟨entry, hentry, -⟩ := hholds
    rw [← hfirstShared, hempty] at hentry
    exact nomatch hentry
  exact (hsecond.cached (hnext ▸ hholds) hlater).2

end Jobs

/-! ### Clients and jobs -/

/-- A client that is built on a cache takes it just if it holds something. What one of the clients
with that cache was answered with success is given out to the others, those that are built later as
well, until it expires or one of them empties the cache; and two full jobs that share a cache do not
both ask for the same document. -/
theorem sharedCache_serves (remote : Remote) :
    (∀ (h : Company) (c : Client) (lifetime : Rat),
      (h.run remote (.build c lifetime)).Shares h.clients.length c ↔
        h.session.cache.entries ≠ []) ∧
    (∀ (h : Company) (i : Nat) (c : Client) (q : Question) (es : List Exchange) (e : Exchange)
      (body : Bytes) (ds : List Deed), h.Shares i c →
        Exchanged c remote q h.session es → e ∈ es → e.kept? = some body →
        (h.run remote (.ask i q)).Calm remote
          (h.session.cacheTime + h.session.cache.lifetime) ds →
        let h' := (h.run remote (.ask i q)).after remote ds
        ∀ j c', h'.Shares j c' → (c'.get remote e.url).run.run h'.session = (.ok body, h'.session) ∧
          h'.run remote (.ask j (.document e.url)) = h') ∧
    ∀ (j : Jobs) (remote' : Remote) (seconds seconds' : Binary64) (limiterTime cacheTime : Rat),
      j.shared.entries ≠ [] →
        j.state.session.cacheTime ≤ cacheTime →
        cacheTime < j.state.session.cacheTime + j.shared.lifetime →
        let first := (j.run remote .full seconds).2
        let later := first.withClocks limiterTime cacheTime
        let second := (later.run remote' .full seconds').2
        ∃ es es', Visits j.client remote j.nextSession es first.state.session ∧
          Visits j.client remote' later.nextSession es' second.state.session ∧
          ∀ e ∈ es, ∀ body, e.kept? = some body →
            ∀ e' ∈ es', e'.way = .document → e'.url = e.url → e'.outcome = .cached body :=
  ⟨Company.build_shares remote, fun _ _ _ _ _ _ _ _ hshares hexchanged he hkept hcalm =>
    Company.serves hshares hexchanged he hkept hcalm,
    fun _ remote' seconds seconds' limiterTime _ hshared hclock hlater =>
      Jobs.full_twice remote seconds hshared remote' seconds' limiterTime hclock hlater⟩

/-- Jobs for one repository, with a shared cache. -/
def jobsWith (shared : Remote.Cache) : Jobs :=
  { Jobs.start .standard [⟨"a/y", none, true⟩] none none .ready with shared }

/-- The request for the document of the repository. -/
def documentRequest : Remote.Request := ⟨"https://api.github.com/repos/a/y", none⟩

/-- The jobs after a full one, and after another one a second later. -/
def afterTwo (shared : Remote.Cache) : Jobs × Jobs :=
  let first := ((jobsWith shared).run twoThere .full .nan).2
  (first, ((first.withClocks 0 1).run twoThere .full .nan).2)

/-- A cache that holds the document at some other address. -/
def seededCache : Remote.Cache := ⟨600, [("https://api.github.com/", ⟨[], 600⟩)]⟩

set_option maxRecDepth 100000 in
/-- A shared cache that holds something serves the second of two jobs, which does not ask for the
document of the repository. -/
theorem sharedCache_serves_of_seeded :
    let (first, second) := afterTwo seededCache
    first.state.session.sent.count documentRequest = 1 ∧
      second.state.session.sent.count documentRequest = 1 ∧
      ∃ es es', Visits (jobsWith seededCache).client twoThere (jobsWith seededCache).nextSession es
          first.state.session ∧
        Visits (jobsWith seededCache).client twoThere (first.withClocks 0 1).nextSession es'
          second.state.session ∧
        ∀ e ∈ es, ∀ body, e.kept? = some body →
          ∀ e' ∈ es', e'.way = .document → e'.url = e.url → e'.outcome = .cached body := by
  refine ⟨by decide +kernel, by decide +kernel, ?_⟩
  exact (sharedCache_serves twoThere).2.2 (jobsWith seededCache) twoThere .nan .nan 0 1
    (List.cons_ne_nil _ _) (by decide +kernel) (by decide +kernel)

set_option maxRecDepth 100000 in
/-- A shared cache that is empty when the jobs start serves none of them: a second later, the second
of two jobs asks for the document that the first one was answered with success. -/
theorem emptyCache_serves_nobody :
    let (first, second) := afterTwo (.empty 600)
    twoThere [] documentRequest = .response ⟨200, none, documentOf "y"⟩ ∧
      first.state.session.sent.count documentRequest = 1 ∧
      second.state.session.sent.count documentRequest = 2 ∧
      second.state.session.cacheTime < first.state.session.cacheTime + first.shared.lifetime := by
  decide +kernel

end ProviderCatalog.Sync
