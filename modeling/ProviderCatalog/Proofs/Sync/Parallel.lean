import ProviderCatalog.Proofs.Store.Hosting
import ProviderCatalog.Proofs.Sync.Filling
import ProviderCatalog.Proofs.Store.Hosted

/-!
# Steps side by side

A step that stores something may use numbers up, and no step gives a number back. So if the numbers
of the tables fit into their columns at the end of a step, then they did so all the way.

A step for a repository behind others does what the same step does for the repository in tables of
its own: it gives the same result up to numbers, fails with the same fault, and leaves tables of
which those of the first step are a host of those of the second. So the two steps are compared part
by part. Numbers of the host have to fit into their columns, and they do if those at the end do.

## Main definitions

* `Tables.Grown`, `Grows`: no number was given back.
* `Hosts`, `Beside`: two stores or states, one with the tables of a host and one of its guest.
* `LogFree`: a relation of states that does not look at their logs.
* `Parallel`: two computations that stay side by side.

## Main results

* `Tables.Filled.grown`: filling the tables gives no number back.
* `Grows.inRange`: numbers that fit at the end of a step fit before it.
* `indexServices_grows` and the like: steps that grow the tables.
* `Parallel.bind`, `Parallel.bindGrowing`: sequences stay side by side if their parts do.
* `Parallel.writing`, `Parallel.updating`, `Parallel.reading`: the actions on a store.
-/

namespace ProviderCatalog

open Schema (Attribute Resource Service)
open Changelog (Entry Release ReleaseRecord)

namespace Store.Tables

/-- The numbers that were used up still are. -/
structure Grown (t t' : Tables) : Prop where
  repositories : t.repositories.last ≤ t'.repositories.last
  services : t.services.last ≤ t'.services.last
  resources : t.resources.last ≤ t'.resources.last
  releases : t.releases.last ≤ t'.releases.last

variable {t t' : Tables} {id : Int}

instance : Std.Refl Grown :=
  ⟨fun _ => ⟨Int.le_refl _, Int.le_refl _, Int.le_refl _, Int.le_refl _⟩⟩

instance : IsTrans Tables Grown where
  trans _ _ _ h h' :=
    ⟨Int.le_trans h.repositories h'.repositories, Int.le_trans h.services h'.services,
      Int.le_trans h.resources h'.resources, Int.le_trans h.releases h'.releases⟩

instance : IsPreorder Tables Grown where

theorem Grown.inRange (h : Grown t t') (hrange : t'.InRange) : t.InRange :=
  ⟨Int.lt_of_le_of_lt h.repositories hrange.repositories,
    Int.lt_of_le_of_lt h.services hrange.services,
    Int.lt_of_le_of_lt h.resources hrange.resources,
    Int.lt_of_le_of_lt h.releases hrange.releases⟩

private theorem last_le_put {α κ : Type} [BEq κ] (table : Table α) (key : α → κ) (a : α) :
    table.last ≤ (table.put key a).1.last :=
  Int.le_add_one (Int.le_refl _)

theorem Fill.grown (h : Fill id t t') : Grown t t' := by
  have htouched := h.touched
  refine ⟨htouched.repositories ▸ Int.le_refl _, ?_, ?_, ?_⟩
  · rcases htouched.services with hsame | ⟨s, hput⟩
    · exact hsame ▸ Int.le_refl _
    · exact hput ▸ last_le_put _ _ _
  · rcases htouched.resources with hsame | ⟨r, -, hput⟩
    · exact hsame ▸ Int.le_refl _
    · exact hput ▸ last_le_put _ _ _
  · rcases htouched.releases with hsame | ⟨r, hput⟩
    · exact hsame ▸ Int.le_refl _
    · exact hput ▸ last_le_put _ _ _

theorem putService_grown {n : Int} {s : Service} (h : t.putService id s = .ok (t', n)) :
    Grown t t' := by
  obtain ⟨-, -, rfl, -⟩ := putService_ok h
  exact ⟨Int.le_refl _, last_le_put _ _ _, Int.le_refl _, Int.le_refl _⟩

theorem putResource_grown {n : Int} {r : Resource} {link : Option Int}
    (h : t.putResource id r link = .ok (t', n)) : Grown t t' := by
  obtain ⟨-, -, -, rfl, -⟩ := putResource_ok h
  exact ⟨Int.le_refl _, Int.le_refl _, last_le_put _ _ _, Int.le_refl _⟩

theorem putRelease_grown {n : Int} {r : ReleaseRecord} (h : t.putRelease id r = .ok (t', n)) :
    Grown t t' := by
  obtain ⟨-, -, rfl, -⟩ := putRelease_ok h
  exact ⟨Int.le_refl _, Int.le_refl _, Int.le_refl _, last_le_put _ _ _⟩

theorem replaceEntries_grown {n : Int} {es : List Entry} (h : t.replaceEntries n es = .ok t') :
    Grown t t' := by
  obtain ⟨⟨x, rfl⟩, -⟩ := replaceEntries_touched h
  exact ⟨Int.le_refl _, Int.le_refl _, Int.le_refl _, Int.le_refl _⟩

theorem Filled.grown (h : Filled id t t') : Grown t t' := by
  induction h with
  | refl => exact Std.Refl.refl _
  | tail _ h ih => exact IsTrans.trans _ _ _ ih h.grown

end Store.Tables

namespace Sync

open Store (Tables)
open Store.Tables (Filled Grown InRange)

variable {α ε : Type} {x : ExceptT ε (StateM State) α} {P : Tables → Prop} {Q : α → State → Prop}

/-- A computation after which the numbers that were used up still are. -/
abbrev Grows (x : ExceptT ε (StateM State) α) : Prop :=
  Leads (Edits Grown) (fun _ => True) x fun _ _ => True

theorem Grows.of_leads (h : Leads (Edits Grown) (On fun _ => True) x Q) : Grows x :=
  h.anywhere.post fun _ _ _ => trivial

theorem Grows.of_fills {id : Int} (h : Leads (Edits (Filled id)) (fun _ => True) x Q) : Grows x :=
  h.mono (fun _ _ h => ⟨h.locks, h.store.mono fun _ _ => Filled.grown⟩) (fun _ h => h)
    fun _ _ _ => trivial

/-- Numbers that fit at the end did so at the start. -/
theorem Grows.inRange (h : Grows x) {σ : State} (hrange : On InRange (x.run.run σ).2) :
    On InRange σ := by
  intro t ht
  obtain ⟨t', ht', hgrown⟩ := (h σ trivial).1.exists ht
  exact hgrown.inRange (hrange t' ht')

/-! ### Services and resources -/

theorem indexServices_grows (id : Int) (links : ServiceLinks) (ss : List Service) :
    Grows (indexServices id links ss) := by
  induction ss generalizing links with
  | nil => exact .pure fun _ _ => trivial
  | cons s ss ih =>
    have hinsert : Leads (Edits Grown) (On fun _ => True)
        (ExceptT.mk (writing (·.insertService id s))) fun _ => On fun _ => True :=
      .write fun _ _ _ _ h => ⟨Tables.putService_grown h, trivial⟩
    refine .bind (Grows.of_leads (.orWarn _ hinsert)) fun id? => ?_
    split
    · exact ih _
    · exact ih links

theorem indexAttributes_grows (n : Int) (resource : Text) (as : List Attribute) :
    Grows (indexAttributes n resource as) := by
  induction as with
  | nil => exact .pure fun _ _ => trivial
  | cons a as ih =>
    refine .bind (Grows.of_leads (.orWarn _ (.update (R := fun _ => True) fun t t' _ h => ?_)))
      fun _ => ih
    obtain ⟨-, -, rfl⟩ := Tables.putAttribute_ok h
    exact ⟨⟨Int.le_refl _, Int.le_refl _, Int.le_refl _, Int.le_refl _⟩, trivial⟩

/-- What is stored of a resource besides its row. -/
theorem indexParts_grows (n : Int) (r : Resource) :
    Grows (do
      indexAttributes n r.name r.attributes
      match r.source with
      | none => return ()
      | some x =>
        let _ ← orWarn ("Failed to store source snippet for " ++ r.name)
          (updating (·.insertSource n x)) : Step Unit) := by
  refine .bind (indexAttributes_grows n r.name r.attributes) fun _ => ?_
  cases r.source with
  | none => exact .pure fun _ _ => trivial
  | some x =>
    refine .bind (Grows.of_leads (.orWarn _ (.update (R := fun _ => True) fun t t' _ h => ?_)))
      fun _ => .pure fun _ _ => trivial
    obtain ⟨-, -, rfl⟩ := Tables.putSource_ok h
    exact ⟨⟨Int.le_refl _, Int.le_refl _, Int.le_refl _, Int.le_refl _⟩, trivial⟩

theorem indexResource_grows (id : Int) (links : ServiceLinks) (r : Resource) :
    Grows (indexResource id links r) := by
  have hinsert : Leads (Edits Grown) (On fun _ => True)
      (ExceptT.mk (writing
        (·.insertResource id r (links.lookup (r.serviceDirectory.getD [])))))
      fun _ => On fun _ => True :=
    .write fun _ _ _ _ h => ⟨Tables.putResource_grown h, trivial⟩
  refine .bind (Grows.of_leads (.orWarn _ hinsert)) fun id? => ?_
  cases id? with
  | none => exact .pure fun _ _ => trivial
  | some n => exact indexParts_grows n r

theorem indexResources_grows (id : Int) (links : ServiceLinks) (rs : List Resource) :
    Grows (indexResources id links rs) := by
  induction rs with
  | nil => exact .pure fun _ _ => trivial
  | cons r rs ih => exact .bind (indexResource_grows id links r) fun _ => ih

/-! ### Releases -/

theorem replaceEntries_grows (failure : Store.Fault → Failure) (n : Int) (es : List Entry) :
    Grows (orFail failure (updating (·.replaceEntries n es))) :=
  Grows.of_leads (.orFail _ (.update (R := fun _ => True) fun _ _ _ h =>
    ⟨Tables.replaceEntries_grown h, trivial⟩))

theorem storeReleases_grows (id : Int) (resourcePrefix : Text)
    (releases : List (Release × ReleaseRecord)) :
    Grows (storeReleases id resourcePrefix releases) :=
  Grows.of_leads (storeReleases_leads (fun _ _ _ _ => Tables.putRelease_grown)
    (fun _ _ _ _ => Tables.replaceEntries_grown) releases)

end Sync

end ProviderCatalog

namespace ProviderCatalog.Sync

open Store (Operation Tables)
open Store.Tables (Guest InRange)

/-- A store in order with the tables of a host, and one with those of its guest. -/
def Hosts (host : Tables) (offset : Int) (name : Text) (s s' : Store) : Prop :=
  ∃ t, Guest name t ∧ s = ⟨some (host.hosting offset t), []⟩ ∧ s' = ⟨some t, []⟩

/-- Two states with such stores, and with sessions in a relation. -/
structure Beside (host : Tables) (offset : Int) (name : Text)
    (H : Remote.Session → Remote.Session → Prop) (σ τ : State) : Prop where
  sessions : H σ.session τ.session
  stores : Hosts host offset name σ.store τ.store

/-- A relation of states that does not look at their logs. -/
class LogFree (J : State → State → Prop) : Prop where
  log : ∀ {σ τ} (lines lines' : List LogLine), J σ τ →
    J { σ with log := lines } { τ with log := lines' }

instance (host : Tables) (offset : Int) (name : Text) (H : Remote.Session → Remote.Session → Prop) :
    LogFree (Beside host offset name H) :=
  ⟨fun _ _ h => ⟨h.sessions, h.stores⟩⟩

/-- From states in a relation, two computations lead to states in a relation and to results that
agree, provided that the tables at the end of the first one have a property. -/
def Parallel {α β ε : Type} (P : Tables → Prop) (J J' : State → State → Prop)
    (x : ExceptT ε (StateM State) α) (y : ExceptT ε (StateM State) β) (Q : α → β → Prop) : Prop :=
  ∀ σ τ, J σ τ → On P (x.run.run σ).2 →
    J' (x.run.run σ).2 (y.run.run τ).2 ∧ Agree Q (x.run.run σ).1 (y.run.run τ).1

namespace Parallel

variable {α β γ δ ε : Type} {P P' : Tables → Prop} {J J₁ J' : State → State → Prop}
  {x : ExceptT ε (StateM State) α} {y : ExceptT ε (StateM State) β} {Q : α → β → Prop}
  {S : γ → δ → Prop}

/-! ### Sequences -/

protected theorem pure {a : α} {b : β} (h : Q a b) :
    Parallel P J J (pure a : ExceptT ε (StateM State) α) (pure b) Q :=
  fun _ _ hJ _ => ⟨hJ, .ok h⟩

protected theorem throw (e : ε) :
    Parallel P J J (throw e : ExceptT ε (StateM State) α)
      (throw e : ExceptT ε (StateM State) β) Q :=
  fun _ _ hJ _ => ⟨hJ, .error e⟩

theorem pre (h : Parallel P J₁ J' x y Q) (hJ : ∀ σ τ, J σ τ → J₁ σ τ) : Parallel P J J' x y Q :=
  fun σ τ hσ => h σ τ (hJ σ τ hσ)

theorem post {Q' : α → β → Prop} (h : Parallel P J J' x y Q) (hQ : ∀ a b, Q a b → Q' a b) :
    Parallel P J J' x y Q' := by
  intro σ τ hJ hP
  obtain ⟨hJ', hagree⟩ := h σ τ hJ hP
  refine ⟨hJ', ?_⟩
  generalize (x.run.run σ).1 = a, (y.run.run τ).1 = b at hagree
  cases hagree with
  | ok hab => exact .ok (hQ _ _ hab)
  | error e => exact .error e

/-- The property is that of the end, so it is taken back to the end of the first parts. -/
private theorem bind_of_back {f : α → ExceptT ε (StateM State) γ}
    {g : β → ExceptT ε (StateM State) δ} (hx : Parallel P' J J₁ x y Q)
    (hJ : ∀ σ τ, J₁ σ τ → J' σ τ) (hP : ∀ t, P t → P' t)
    (hback : ∀ a σ, On P ((f a).run.run σ).2 → On P' σ)
    (hf : ∀ a b, Q a b → Parallel P J₁ J' (f a) (g b) S) :
    Parallel P J J' (x >>= f) (y >>= g) S := by
  intro σ τ hσ
  have hafter := hx σ τ hσ
  rw [run_bind, run_bind]
  generalize x.run.run σ = r, y.run.run τ = r' at hafter
  obtain ⟨e | a, σ'⟩ := r
  · intro hend
    obtain ⟨hJ₁, hagree⟩ := hafter fun t ht => hP t (hend t ht)
    obtain ⟨r', τ'⟩ := r'
    dsimp only at hJ₁ hagree
    cases hagree
    exact ⟨hJ _ _ hJ₁, .error _⟩
  · intro hend
    obtain ⟨hJ₁, hagree⟩ := hafter (hback a σ' hend)
    obtain ⟨r', τ'⟩ := r'
    dsimp only at hJ₁ hagree
    cases hagree with
    | ok hab => exact hf a _ hab σ' τ' hJ₁ hend

/-- Sequences stay side by side if their parts do, the first ones whatever the tables are. -/
protected theorem bind {f : α → ExceptT ε (StateM State) γ} {g : β → ExceptT ε (StateM State) δ}
    (hx : Parallel (fun _ => True) J J₁ x y Q) (hJ : ∀ σ τ, J₁ σ τ → J' σ τ)
    (hf : ∀ a b, Q a b → Parallel P J₁ J' (f a) (g b) S) :
    Parallel P J J' (x >>= f) (y >>= g) S :=
  bind_of_back hx hJ (fun _ _ => trivial) (fun _ _ _ _ _ => trivial) hf

/-- First parts that need numbers to fit may come before what gives no number back. -/
theorem bindGrowing {f : α → ExceptT ε (StateM State) γ} {g : β → ExceptT ε (StateM State) δ}
    (hx : Parallel InRange J J₁ x y Q) (hJ : ∀ σ τ, J₁ σ τ → J' σ τ) (hgrows : ∀ a, Grows (f a))
    (hf : ∀ a b, Q a b → Parallel InRange J₁ J' (f a) (g b) S) :
    Parallel InRange J J' (x >>= f) (y >>= g) S :=
  bind_of_back hx hJ (fun _ h => h) (fun a _ => (hgrows a).inRange) hf

theorem lift {u : StateM State α} {v : StateM State β}
    (h : ∀ σ τ, J σ τ → J' (u.run σ).2 (v.run τ).2 ∧ Q (u.run σ).1 (v.run τ).1) :
    Parallel P J J' (liftM u : ExceptT ε (StateM State) α)
      (liftM v : ExceptT ε (StateM State) β) Q :=
  fun σ τ hJ _ => ⟨(h σ τ hJ).1, .ok (h σ τ hJ).2⟩

/-! ### Actions -/

section Actions

variable {host : Tables} {offset : Int} {name : Text} {o : Operation} {table : String}
  {H : Remote.Session → Remote.Session → Prop} {m : α → α}

/-- A write to the host that is the same write to the guest. -/
theorem writing {f g : Tables → Except Store.Fault (Tables × α)} {Q : α → α → Prop}
    (h : ∀ t, Guest name t →
      f (host.hosting offset t) = (g t).map fun r => (host.hosting offset r.1, m r.2))
    (hguest : ∀ t t' b, Guest name t → g t = .ok (t', b) →
      Guest name t' ∧ (P (host.hosting offset t') → Q (m b) b)) :
    Parallel P (Beside host offset name H) (Beside host offset name H)
      (ExceptT.mk (Sync.writing (·.write o table f)))
      (ExceptT.mk (Sync.writing (·.write o table g))) Q := by
  rintro σ τ ⟨hsessions, t, ht, hσ, hτ⟩
  have hrun : Sync.writing (·.write o table f) σ = match (g t) with
      | .ok r => (.ok (m r.2), { σ with store := ⟨some (host.hosting offset r.1), []⟩ })
      | .error e => (.error e, σ) := by
    refine (run_writing _ σ).trans ?_
    rw [hσ, Store.write_inOrder rfl rfl, h t ht]
    cases g t <;> rfl
  have hrun' : Sync.writing (·.write o table g) τ = match (g t) with
      | .ok r => (.ok r.2, { τ with store := ⟨some r.1, []⟩ })
      | .error e => (.error e, τ) := by
    refine (run_writing _ τ).trans ?_
    rw [hτ, Store.write_inOrder rfl rfl]
    cases g t <;> rfl
  change On P (Sync.writing (·.write o table f) σ).2 → Beside host offset name H
    (Sync.writing (·.write o table f) σ).2 (Sync.writing (·.write o table g) τ).2 ∧
      Agree Q (Sync.writing (·.write o table f) σ).1 (Sync.writing (·.write o table g) τ).1
  rw [hrun, hrun']
  cases hg : g t with
  | error e => exact fun _ => ⟨⟨hsessions, t, ht, hσ, hτ⟩, .error e⟩
  | ok r =>
    obtain ⟨hafter, hQ⟩ := hguest t r.1 r.2 ht hg
    exact fun hP => ⟨⟨hsessions, r.1, hafter, rfl, rfl⟩, .ok (hQ (hP _ rfl))⟩

/-- A write without an answer is a write. -/
private theorem updating_eq_writing (f : Tables → Except Store.Fault Tables) :
    Sync.updating (·.update o table f) =
      Sync.writing (·.write o table fun t => return ((← f t), ())) := by
  funext σ
  refine (run_updating _ σ).trans (Eq.trans ?_ (run_writing _ σ).symm)
  rw [Store.update]
  rcases σ.store.write o table fun t => return ((← f t), ()) with _ | ⟨_, _⟩ <;> rfl

/-- So for a write without an answer. -/
theorem updating {f g : Tables → Except Store.Fault Tables}
    (h : ∀ t, Guest name t → f (host.hosting offset t) = (g t).map (host.hosting offset))
    (hguest : ∀ t t', Guest name t → g t = .ok t' → Guest name t') :
    Parallel P (Beside host offset name H) (Beside host offset name H)
      (ExceptT.mk (Sync.updating (·.update o table f)))
      (ExceptT.mk (Sync.updating (·.update o table g))) fun _ _ => True := by
  rw [updating_eq_writing, updating_eq_writing]
  refine .writing (m := fun _ => ()) (fun t ht => ?_) fun t t' _ ht hg => ?_
  · rw [h t ht]
    cases g t <;> rfl
  · obtain ⟨_, hu, hsame⟩ := except_bind_eq_ok.mp hg
    cases hsame
    exact ⟨hguest t t' ht hu, fun _ => trivial⟩

/-- What is read from the host is what is read from the guest, as it is in the host. -/
theorem reading {f g : Tables → Except Store.Fault α}
    (h : ∀ t, Guest name t → f (host.hosting offset t) = (g t).map m) :
    Parallel P (Beside host offset name H) (Beside host offset name H)
      (ExceptT.mk (Sync.reading (·.read o table f)))
      (ExceptT.mk (Sync.reading (·.read o table g))) fun a b => a = m b := by
  rintro σ τ ⟨hsessions, t, ht, hσ, hτ⟩ -
  refine ⟨⟨hsessions, t, ht, hσ, hτ⟩, ?_⟩
  change Agree _ (σ.store.read o table f) (τ.store.read o table g)
  rw [hσ, hτ, Store.read_inOrder rfl rfl, Store.read_inOrder rfl rfl, h t ht]
  cases g t with
  | error e => exact .error e
  | ok a => exact .ok rfl

/-- Questions with the same answer. -/
theorem answered {c c' : Remote.Call α}
    (h : ∀ s s', H s s' → (c.run.run s).1 = (c'.run.run s').1) :
    Parallel P (Beside host offset name H) (Beside host offset name fun _ _ => True)
      (liftM (asking c) : ExceptT ε (StateM State) _)
      (liftM (asking c') : ExceptT ε (StateM State) _) fun a b => a = b :=
  .lift fun _ _ hJ => ⟨⟨trivial, hJ.stores⟩, h _ _ hJ.sessions⟩

end Actions

/-! ### Failures and the log -/

section Failures

theorem logging [LogFree J] (severity : Severity) (messages : List Text) :
    Parallel P J J (liftM (Sync.logging severity messages) : ExceptT ε (StateM State) _)
      (liftM (Sync.logging severity messages) : ExceptT ε (StateM State) _) fun _ _ => True :=
  .lift fun _ _ hJ => ⟨LogFree.log _ _ hJ, trivial⟩

/-- The state in which a step ends that fails when an action does. -/
private theorem orFail_state (failure : ε → Failure) (u : StateM State (Except ε α)) (σ : State) :
    ((Sync.orFail failure u).run.run σ).2 = (u.run σ).2 := by
  rw [run_orFail]
  rcases u.run σ with ⟨_ | _, _⟩ <;> rfl

theorem orFail {u : StateM State (Except ε α)} {v : StateM State (Except ε β)}
    (failure : ε → Failure) (h : Parallel P J J' (ExceptT.mk u) (ExceptT.mk v) Q) :
    Parallel P J J' (Sync.orFail failure u) (Sync.orFail failure v) Q := by
  intro σ τ hJ hP
  rw [orFail_state] at hP
  obtain ⟨hJ', hagree⟩ := h σ τ hJ hP
  change J' (u.run σ).2 (v.run τ).2 at hJ'
  change Agree Q (u.run σ).1 (v.run τ).1 at hagree
  rw [orFail_state, orFail_state]
  refine ⟨hJ', ?_⟩
  rw [run_orFail, run_orFail]
  generalize u.run σ = a, v.run τ = b at hagree
  obtain ⟨a, _⟩ := a
  obtain ⟨b, _⟩ := b
  dsimp only at hagree
  cases hagree with
  | ok hab => exact .ok hab
  | error e => exact .error _

/-- A refusal is passed over in both steps or in none. -/
theorem orWarn [LogFree J'] {u : StateM State (Except Store.Fault α)}
    {v : StateM State (Except Store.Fault β)} (about : Text)
    (h : Parallel P J J' (ExceptT.mk u) (ExceptT.mk v) Q) :
    Parallel P J J' (Sync.orWarn about u) (Sync.orWarn about v) (Option.Rel Q) := by
  intro σ τ hJ hP
  have hrun := h σ τ hJ
  change On P (u.run σ).2 → J' (u.run σ).2 (v.run τ).2 ∧ Agree Q (u.run σ).1 (v.run τ).1 at hrun
  rw [run_orWarn] at hP ⊢
  rw [run_orWarn]
  generalize u.run σ = a, v.run τ = b at hP hrun
  obtain ⟨_ | a, σ'⟩ := a
  · rename_i f
    have hP' : On P σ' := by
      dsimp only at hP
      split at hP <;> exact hP
    obtain ⟨hJ', hagree⟩ := hrun hP'
    obtain ⟨b, τ'⟩ := b
    dsimp only at hagree hJ'
    cases hagree
    dsimp only
    split
    · exact ⟨LogFree.log _ _ hJ', .ok .none⟩
    · exact ⟨hJ', .error _⟩
  · obtain ⟨hJ', hagree⟩ := hrun hP
    obtain ⟨b, τ'⟩ := b
    dsimp only at hagree hJ'
    cases hagree with
    | ok hab => exact ⟨hJ', .ok (.some hab)⟩

/-- What becomes of a step whose failure is a warning does not depend on how it fails. -/
theorem softly [LogFree J'] {x : Step α} {y : Step β} (about : Text)
    (h : Parallel P J J' x y Q) :
    Parallel P J J' (liftM (Sync.softly about x) : Step Unit)
      (liftM (Sync.softly about y) : Step Unit) fun _ _ => True := by
  have hstate {γ : Type} (z : Step γ) (υ : State) : ∃ lines,
      ((Sync.softly about z).run υ).2 = { (z.run.run υ).2 with log := lines } := by
    rw [run_softly]
    rcases z.run.run υ with ⟨_ | _, _⟩ <;> exact ⟨_, rfl⟩
  intro σ τ hJ hP
  obtain ⟨lines, hσ⟩ := hstate x σ
  obtain ⟨lines', hτ⟩ := hstate y τ
  rw [run_lift] at hP ⊢
  dsimp only at hP
  rw [hσ] at hP
  obtain ⟨hJ', -⟩ := h σ τ hJ hP
  rw [run_lift, hσ, hτ]
  exact ⟨LogFree.log _ _ hJ', .ok trivial⟩

end Failures

end Parallel

end ProviderCatalog.Sync
