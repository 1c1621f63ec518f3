import ProviderCatalog.Proofs.Store.Filling
import ProviderCatalog.Proofs.Store.Operations
import ProviderCatalog.Proofs.Store.Upserts

/-!
# Sequences of calls

Whatever calls are made to a store that was initialised, in whatever order and with whatever
failures in between, its tables stay consistent, an upsert touches the row of its key only, and no
number is given out twice.

## Main definitions

* `Command`, `perform`: the operations that change a store, with their arguments.
* `Call`, `after`: calls during which some operations are out of order, and the store that they
  leave.

## Main results

* `perform_carried`: what one command does to valid tables.
* `files_fit_after_calls`: stored files fit into their columns.
* `representation_after_calls`: consistency, upserts and numbers along every sequence of calls.
-/

namespace ProviderCatalog.Store

open Schema (Attribute Resource Service SnippetBundle)
open Changelog (Entry ReleaseRecord)

/-- An operation that changes the store, with its arguments. -/
inductive Command where
  | prepare
  | insertRepository (r : RepositoryRecord)
  | deleteRepository (id : Int)
  | clearRepository (id : Int)
  | insertFile (f : RepositoryFile)
  | insertService (repository : Int) (s : Service)
  | insertResource (repository : Int) (r : Resource) (service : Option Int)
  | insertAttribute (resource : Int) (a : Attribute)
  | insertSource (resource : Int) (x : SnippetBundle)
  | insertRelease (repository : Int) (r : ReleaseRecord)
  | replaceEntries (release : Int) (es : List Entry)

/-- The table and the key under which a command stores a row. -/
def Command.upserts? : Command → Option (Σ k : Kind, k.Key)
  | prepare | deleteRepository _ | clearRepository _ | replaceEntries _ _ => none
  | insertRepository r => some ⟨.repositories, r.name⟩
  | insertFile f => some ⟨.files, f.repositoryId, f.path⟩
  | insertService repository s => some ⟨.services, repository, s.name⟩
  | insertResource repository r _ => some ⟨.resources, repository, r.name, r.kind⟩
  | insertAttribute resource a => some ⟨.attributes, resource, a.name⟩
  | insertSource resource _ => some ⟨.sources, resource⟩
  | insertRelease repository r => some ⟨.releases, repository, r.version⟩

/-- Whether a command tells the number of the row that it stores. -/
def Command.tells : Command → Bool
  | insertRepository _ | insertService _ _ | insertResource _ _ _ | insertRelease _ _ => true
  | _ => false

/-- An outcome that tells a number. -/
def telling (x : Except Fault (Store × Int)) : Except Fault (Store × Option Int) :=
  x.map fun (s, n) => (s, some n)

/-- An outcome that tells nothing. -/
def silent (x : Except Fault Store) : Except Fault (Store × Option Int) :=
  x.map fun s => (s, none)

/-- Carries out a command, with the number that it tells. -/
def perform (s : Store) : Command → Except Fault (Store × Option Int)
  | .prepare => silent s.prepare
  | .insertRepository r => telling (s.insertRepository r)
  | .deleteRepository id => silent (s.deleteRepository id)
  | .clearRepository id => silent (s.clearRepository id)
  | .insertFile f => silent (s.insertFile f)
  | .insertService repository x => telling (s.insertService repository x)
  | .insertResource repository r service => telling (s.insertResource repository r service)
  | .insertAttribute resource a => silent (s.insertAttribute resource a)
  | .insertSource resource x => silent (s.insertSource resource x)
  | .insertRelease repository r => telling (s.insertRelease repository r)
  | .replaceEntries release es => silent (s.replaceEntries release es)

/-- A command that is called while some operations are out of order. -/
structure Call where
  outOfOrder : List Operation
  command : Command

/-- The outcome of a call. -/
def Call.outcome (c : Call) (s : Store) : Except Fault (Store × Option Int) :=
  perform { s with outOfOrder := c.outOfOrder } c.command

/-- The store after calls; one that fails leaves the store as it was. -/
def after (s : Store) : List Call → Store
  | [] => s
  | c :: calls =>
    match c.outcome s with
    | .ok (s', _) => s'.after calls
    | .error _ => s.after calls

/-- The tables of a store, without rows if it has none. -/
def contents (s : Store) : Tables := s.tables.getD .empty

/-! ### One command -/

/-- What a command does that is carried out on valid tables. -/
structure Carried (c : Command) (told : Option Int) (t t' : Tables) : Prop where
  valid : t'.Valid
  advances : t.Advances t'
  upserted : ∀ k key, c.upserts? = some ⟨k, key⟩ →
    ∃ n, t.Upserted k key n t' ∧ told = if c.tells then some n else none
  files : ∀ r ∈ t'.files.rows, r ∈ t.files.rows ∨ Param.bind (Param.ofFile r.value) = .ok ()

section Commands

variable {s s' : Store} {t t' : Tables} {c : Command} {told : Option Int} {n : Int}

private theorem telling_ok {x : Except Fault (Store × Int)} (h : telling x = .ok (s', told)) :
    ∃ n, x = .ok (s', n) ∧ told = some n := by
  cases x with
  | error f => exact nomatch h
  | ok r =>
    cases h
    exact ⟨_, rfl, rfl⟩

private theorem silent_ok {x : Except Fault Store} (h : silent x = .ok (s', told)) :
    x = .ok s' ∧ told = none := by
  cases x with
  | error f => exact nomatch h
  | ok r =>
    cases h
    exact ⟨rfl, rfl⟩

private theorem Carried.of_upserts {k : Kind} {key : k.Key} (hc : c.upserts? = some ⟨k, key⟩)
    (hvalid : t'.Valid) (h : t.Upserted k key n t' ∧ t.Advances t')
    (htold : told = if c.tells then some n else none)
    (hfiles : ∀ r ∈ t'.files.rows, r ∈ t.files.rows ∨ Param.bind (Param.ofFile r.value) = .ok ()) :
    Carried c told t t' := by
  refine ⟨hvalid, h.2, fun j key' hj => ?_, hfiles⟩
  rw [hc] at hj
  cases hj
  exact ⟨n, h.1, htold⟩

private theorem Carried.of_none (hc : c.upserts? = none) (hvalid : t'.Valid)
    (hadvances : t.Advances t') (hfiles : ∀ r ∈ t'.files.rows, r ∈ t.files.rows) :
    Carried c told t t' := by
  refine ⟨hvalid, hadvances, fun k key hk => ?_, fun r hr => Or.inl (hfiles r hr)⟩
  rw [hc] at hk
  exact nomatch hk

private theorem telling_write_ok {o : Operation} {table : String}
    {f : Tables → Except Fault (Tables × Int)} (h : telling (s.write o table f) = .ok (s', told))
    (hs : s.tables = some t) :
    ∃ t' n, s'.tables = some t' ∧ f t = .ok (t', n) ∧ told = some n := by
  obtain ⟨n, hw, rfl⟩ := telling_ok h
  obtain ⟨-, u, t', hu, hf, rfl⟩ := write_ok.mp hw
  cases hs.symm.trans hu
  exact ⟨t', n, rfl, hf, rfl⟩

private theorem silent_update_ok {o : Operation} {table : String}
    {f : Tables → Except Fault Tables} (h : silent (s.update o table f) = .ok (s', told))
    (hs : s.tables = some t) : ∃ t', s'.tables = some t' ∧ f t = .ok t' ∧ told = none := by
  obtain ⟨hw, rfl⟩ := silent_ok h
  obtain ⟨-, u, t', hu, hf, rfl⟩ := update_ok.mp hw
  cases hs.symm.trans hu
  exact ⟨t', rfl, hf, rfl⟩

/-- A command that is carried out keeps the tables valid, gives out numbers that are new, and is an
upsert of its key if it has one. -/
theorem perform_carried (h : s.perform c = .ok (s', told)) (hs : s.tables = some t)
    (hvalid : t.Valid) : ∃ t', s'.tables = some t' ∧ Carried c told t t' := by
  -- only one of the commands changes the files, and what it stores fits
  have hothers {k : Kind} {key : k.Key} {n : Int} {t' : Tables} (h : t.Upserted k key n t')
      (hk : Kind.files ≠ k) (r : Row RepositoryFile) (hr : r ∈ t'.files.rows) :
      r ∈ t.files.rows ∨ Param.bind (Param.ofFile r.value) = .ok () := by
    have hsame : t'.files.toTable = t.files.toTable := h.elsewhere .files hk
    exact Or.inl (hsame ▸ hr)
  cases c with
  | prepare =>
    obtain ⟨hprepare, -⟩ := silent_ok h
    obtain ⟨⟨⟩, -, hprepare⟩ := except_bind_eq_ok.mp hprepare
    cases hprepare
    exact ⟨t, by rw [hs, Option.getD_some], .of_none rfl hvalid (.refl t) fun _ hr => hr⟩
  | insertRepository r =>
    obtain ⟨t', n, ht', hput, rfl⟩ := telling_write_ok h hs
    have hupserts := hvalid.putRepository_upserts hput
    exact ⟨t', ht', .of_upserts rfl (hvalid.putRepository hput) hupserts rfl
      (hothers hupserts.1 nofun)⟩
  | deleteRepository id =>
    obtain ⟨t', ht', hdelete, -⟩ := silent_update_ok h hs
    have hadvances := hvalid.deleteRepository_advances hdelete
    refine ⟨t', ht', .of_none rfl (hvalid.deleteRepository hdelete) hadvances fun r hr => ?_⟩
    obtain ⟨-, rfl⟩ := hvalid.deleteRepository_ok hdelete
    exact List.mem_of_mem_filter hr
  | clearRepository id =>
    obtain ⟨t', ht', hclear, -⟩ := silent_update_ok h hs
    have hadvances := Tables.clearRepository_advances hclear
    refine ⟨t', ht', .of_none rfl (hvalid.clearRepository hclear) hadvances fun r hr => ?_⟩
    obtain ⟨-, rfl⟩ := Tables.clearRepository_ok hclear
    exact List.mem_of_mem_filter hr
  | insertFile f =>
    obtain ⟨t', ht', hput, rfl⟩ := silent_update_ok h hs
    obtain ⟨n, hupserts⟩ := hvalid.putFile_upserts hput
    refine ⟨t', ht', .of_upserts rfl (hvalid.putFile hput) hupserts rfl fun r hr => ?_⟩
    obtain ⟨hfits, -, rfl⟩ := Tables.putFile_ok hput
    rcases Table.mem_put hr with hold | rfl
    · exact Or.inl hold
    · exact Or.inr hfits
  | insertService repository x =>
    obtain ⟨t', n, ht', hput, rfl⟩ := telling_write_ok h hs
    have hupserts := hvalid.putService_upserts hput
    exact ⟨t', ht', .of_upserts rfl (hvalid.putService hput) hupserts rfl
      (hothers hupserts.1 nofun)⟩
  | insertResource repository r service =>
    obtain ⟨t', n, ht', hput, rfl⟩ := telling_write_ok h hs
    have hupserts := hvalid.putResource_upserts hput
    exact ⟨t', ht', .of_upserts rfl (hvalid.putResource hput) hupserts rfl
      (hothers hupserts.1 nofun)⟩
  | insertAttribute resource a =>
    obtain ⟨t', ht', hput, rfl⟩ := silent_update_ok h hs
    obtain ⟨n, hupserts⟩ := hvalid.putAttribute_upserts hput
    exact ⟨t', ht', .of_upserts rfl (hvalid.putAttribute hput) hupserts rfl
      (hothers hupserts.1 nofun)⟩
  | insertSource resource x =>
    obtain ⟨t', ht', hput, rfl⟩ := silent_update_ok h hs
    obtain ⟨n, hupserts⟩ := hvalid.putSource_upserts hput
    exact ⟨t', ht', .of_upserts rfl (hvalid.putSource hput) hupserts rfl
      (hothers hupserts.1 nofun)⟩
  | insertRelease repository r =>
    obtain ⟨t', n, ht', hput, rfl⟩ := telling_write_ok h hs
    have hupserts := hvalid.putRelease_upserts hput
    exact ⟨t', ht', .of_upserts rfl (hvalid.putRelease hput) hupserts rfl
      (hothers hupserts.1 nofun)⟩
  | replaceEntries release es =>
    obtain ⟨t', ht', hreplace, -⟩ := silent_update_ok h hs
    have hadvances := Tables.replaceEntries_advances hreplace
    refine ⟨t', ht', .of_none rfl (hvalid.replaceEntries hreplace) hadvances fun r hr => ?_⟩
    obtain ⟨⟨entries, rfl⟩, -⟩ := Tables.replaceEntries_touched hreplace
    exact hr

end Commands

/-! ### Sequences of calls -/

section Calls

variable {s : Store} {t : Tables} {calls : List Call}

theorem after_append (s : Store) (calls later : List Call) :
    s.after (calls ++ later) = (s.after calls).after later := by
  induction calls generalizing s with
  | nil => rfl
  | cons c calls ih =>
    rw [List.cons_append, after, after]
    split
    · exact ih _
    · exact ih _

/-- Calls keep tables valid, give out numbers in ascending order, and leave files that fit. -/
theorem after_valid (hs : s.tables = some t) (hvalid : t.Valid) (calls : List Call) :
    ∃ t', (s.after calls).tables = some t' ∧ t'.Valid ∧ t.Advances t' ∧
      ∀ r ∈ t'.files.rows, r ∈ t.files.rows ∨ Param.bind (Param.ofFile r.value) = .ok () := by
  induction calls generalizing s t with
  | nil => exact ⟨t, hs, hvalid, .refl t, fun _ hr => Or.inl hr⟩
  | cons c calls ih =>
    rw [after]
    split
    · rename_i s' told houtcome
      obtain ⟨u, hu, hcarried⟩ := perform_carried houtcome hs hvalid
      obtain ⟨t', ht', hvalid', hadvances, hfiles⟩ := ih hu hcarried.valid
      refine ⟨t', ht', hvalid', hcarried.advances.trans hadvances, fun r hr => ?_⟩
      rcases hfiles r hr with hu | hfits
      · exact hcarried.files r hu
      · exact Or.inr hfits
    · exact ih hs hvalid

/-- An initialised store has tables after any calls, and they are valid. -/
theorem ready_after (calls : List Call) :
    (ready.after calls).tables = some (ready.after calls).contents ∧
      (ready.after calls).contents.Valid := by
  obtain ⟨t, ht, hvalid, -, -⟩ := after_valid (s := ready) rfl .empty calls
  have hcontents : (ready.after calls).contents = t := by
    rw [contents, ht, Option.getD_some]
  exact ⟨by rw [hcontents, ht], hcontents ▸ hvalid⟩

/-- The tables advance from calls to later calls. -/
theorem ready_after_advances (calls later : List Call) :
    (ready.after calls).contents.Advances (ready.after (calls ++ later)).contents := by
  obtain ⟨htables, hvalid⟩ := ready_after calls
  obtain ⟨t, ht, -, hadvances, -⟩ := after_valid htables hvalid later
  rw [after_append, contents, contents, ht]
  simpa [contents] using hadvances

/-- The values of the files that any calls leave in an initialised store fit into their columns. -/
theorem files_fit_after_calls (calls : List Call) :
    ∀ r ∈ (ready.after calls).contents.files.rows,
      Param.bind (Param.ofFile r.value) = .ok () := by
  obtain ⟨t, ht, -, -, hfiles⟩ := after_valid (s := ready) rfl .empty calls
  intro r hr
  rw [contents, ht, Option.getD_some] at hr
  exact (hfiles r hr).resolve_left List.not_mem_nil

end Calls

/-- After any calls to an initialised store its tables are consistent. A further call that stores a
row under a key changes the row with the key only, which keeps its number if it is there already,
and that number is what the call tells. A row that later calls add has a number above all those that
the rows of its table ever had, so the number of a row that is gone is not given out again. -/
theorem representation_after_calls (calls : List Call) :
    (ready.after calls).contents.Consistent ∧
      (∀ (c : Call) (s' : Store) (told : Option Int) (k : Kind) (key : k.Key),
        c.outcome (ready.after calls) = .ok (s', told) → c.command.upserts? = some ⟨k, key⟩ →
          ∃ n, (ready.after calls).contents.Upserted k key n s'.contents ∧
            told = if c.command.tells then some n else none) ∧
      (∀ (k : Kind) (earlier later : List Call), earlier <+: calls →
        ∀ x ∈ ((ready.after earlier).contents.table k).rows,
          ∀ r ∈ ((ready.after (calls ++ later)).contents.table k).rows,
            (∀ y ∈ ((ready.after calls).contents.table k).rows, y.id ≠ r.id) → x.id < r.id) ∧
      ∀ (k : Kind) (earlier later : List Call), earlier <+: calls →
        ∀ x ∈ ((ready.after earlier).contents.table k).rows,
          (∀ y ∈ ((ready.after calls).contents.table k).rows, y.id ≠ x.id) →
            ∀ r ∈ ((ready.after (calls ++ later)).contents.table k).rows, r.id ≠ x.id := by
  obtain ⟨htables, hvalid⟩ := ready_after calls
  have hfresh (k : Kind) (earlier later : List Call) (hearlier : earlier <+: calls)
      (x : Row k.Value) (hx : x ∈ ((ready.after earlier).contents.table k).rows) (r : Row k.Value)
      (hr : r ∈ ((ready.after (calls ++ later)).contents.table k).rows)
      (hnew : ∀ y ∈ ((ready.after calls).contents.table k).rows, y.id ≠ r.id) : x.id < r.id := by
    obtain ⟨between, rfl⟩ := hearlier
    have hsound := (ready_after earlier).2.sound k
    have hbetween := ready_after_advances earlier between k
    have hlater := ready_after_advances (earlier ++ between) later k
    exact hbetween.fresh hlater hsound hr hnew hx
  refine ⟨hvalid.consistent, ?_, hfresh, ?_⟩
  · intro c s' told k key houtcome hkey
    obtain ⟨t', ht', hcarried⟩ := perform_carried houtcome htables hvalid
    obtain ⟨n, hupserted, htold⟩ := hcarried.upserted k key hkey
    have hcontents : s'.contents = t' := by
      rw [contents, ht', Option.getD_some]
    exact ⟨n, hcontents ▸ hupserted, htold⟩
  · intro k earlier later hearlier x hx hgone r hr hid
    have hlt : x.id < r.id :=
      hfresh k earlier later hearlier x hx r hr fun y hy hyr => hgone y hy (hyr.trans hid)
    omega

/-- The record of the repository with a name. -/
private def named (name : Text) : RepositoryRecord :=
  ⟨none, name, "acme/" ++ name, none, "https://github.com/acme/" ++ name, none, none⟩

-- a name keeps its number, and the number of a repository that is gone is not given to another one
example : ([named "x", named "y"].map fun r =>
      ((Call.mk [] (.insertRepository r)).outcome
        (ready.after [⟨[], .insertRepository (named "x")⟩, ⟨[], .insertRepository (named "z")⟩,
          ⟨[], .deleteRepository 2⟩])).toOption.bind (·.2)) = [some 1, some 3] := by
  decide +kernel

end ProviderCatalog.Store
