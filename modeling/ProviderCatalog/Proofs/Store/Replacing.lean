import ProviderCatalog.Proofs.Changelog.Unicode
import ProviderCatalog.Proofs.Store.Calls
import ProviderCatalog.Proofs.Store.Storing
import Mathlib.Algebra.Group.Nat.Defs

/-!
# Replacing the entries of a release

The entries of a release are replaced by removing those that are there and adding the new ones one
by one. This succeeds exactly if all values fit into their columns, no key is repeated, and the
release is there unless there is nothing to add. If one of the entries is refused, the removal and
the additions before it are undone: carried out as statements of a transaction, all of them count or
none does.

## Main definitions

* `Tables.Replaceable`: what it takes to replace the entries of a release.

## Main results

* `Tables.replaceable_of_ok`, `Tables.Replaceable.stores`: when entries are replaced.
* `Connection.transact_idle`: a transaction is its statements one after the other, or nothing.
* `replaceEntries_all_or_nothing`: the two outcomes of replacing entries, in any reachable store.
* `entries_stored_and_read`: the entries of a release, stored and read back.
-/

namespace ProviderCatalog.Store

open Changelog (Entry Release)

variable {t t' : Tables} {release n : Int} {es : List Entry} {e : Entry}

/-! ### Entries that fit -/

/-- An entry fits if none of its texts has a lone surrogate and its position fits. -/
theorem Param.entry_fits_iff (hn : (Param.number n).fault? = none) :
    Param.bind (Param.ofEntry ⟨n, e⟩) = .ok () ↔
      e.Unicode ∧ (Param.number e.position).fault? = none := by
  simp only [Param.bind_eq_ok_iff, Param.ofEntry, List.forall_mem_cons, Param.text_fits_iff,
    Param.ofText?_fits_iff]
  constructor
  · rintro ⟨-, hsection, hkey, htitle, hdetails, hresource, hidentifier, hkind, hposition, -⟩
    exact ⟨⟨hsection, hkey, htitle, hdetails, hresource, hidentifier, hkind⟩, hposition⟩
  · rintro ⟨he, hposition⟩
    exact ⟨hn, he.sectionName, he.key, he.title, he.details, he.resourceName, he.identifier,
      he.kind, hposition, List.forall_mem_nil _⟩

namespace Tables

/-- What it takes to replace the entries of a release: every value fits into its column, no key is
repeated, and the release is there unless there is nothing to add. -/
structure Replaceable (t : Tables) (release : Int) (es : List Entry) : Prop where
  number : -(2 ^ 63) ≤ release ∧ release < 2 ^ 63
  there : es ≠ [] → t.releases.has release = true
  keys : es.Pairwise (·.key ≠ ·.key)
  texts : ∀ e ∈ es, e.Unicode
  positions : ∀ e ∈ es, -(2 ^ 63) ≤ e.position ∧ e.position < 2 ^ 63

/-- Entries that were added one by one have passed their checks, also against the rows before. -/
private theorem addEntries_ok (h : es.foldlM (fun t e => t.addEntry release e) t = .ok t') :
    (es ≠ [] → t.releases.has release = true) ∧ es.Pairwise (·.key ≠ ·.key) ∧
      ∀ e ∈ es, Param.bind (Param.ofEntry ⟨release, e⟩) = .ok () ∧
        ∀ r ∈ t.entries.rows, entryKey r.value ≠ entryKey ⟨release, e⟩ := by
  induction es generalizing t with
  | nil => exact ⟨fun hne => absurd rfl hne, .nil, List.forall_mem_nil _⟩
  | cons e es ih =>
    obtain ⟨u, hu, h⟩ := except_bind_eq_ok.mp ((List.foldlM_cons ..).symm.trans h)
    obtain ⟨hbind, hnew, hrelease, rfl⟩ := addEntry_ok hu
    obtain ⟨-, hkeys, hrest⟩ := ih h
    refine ⟨fun _ => hrelease, List.pairwise_cons.mpr ⟨fun x hx hsame => ?_, hkeys⟩,
      List.forall_mem_cons.mpr ⟨⟨hbind, hnew⟩, fun x hx => ⟨(hrest x hx).1, fun r hr => ?_⟩⟩⟩
    · -- the entry is among the rows that a later one is checked against
      refine (hrest x hx).2 ⟨t.entries.next, ⟨release, e⟩⟩ ?_ (Prod.ext rfl hsame)
      exact List.mem_append_right _ (List.mem_singleton_self _)
    · exact (hrest x hx).2 r (List.mem_append_left _ hr)

/-- Entries that were replaced could be replaced. -/
theorem replaceable_of_ok (h : t.replaceEntries release es = .ok t') :
    t.Replaceable release es := by
  obtain ⟨hnumber, hadd⟩ := replaceEntries_ok h
  have hfits := Param.fits_of_bind hnumber (List.mem_singleton_self _)
  obtain ⟨hthere, hkeys, hentries⟩ := addEntries_ok hadd
  exact {
    number := Param.fits_iff.mp hfits
    there := hthere
    keys := hkeys
    texts := fun e he => ((Param.entry_fits_iff hfits).mp (hentries e he).1).1
    positions := fun e he =>
      Param.fits_iff.mp ((Param.entry_fits_iff hfits).mp (hentries e he).1).2 }

/-- Entries that can be replaced are: afterwards the release has the new ones, in their order, and
every other release has those that it had. -/
theorem Replaceable.stores (h : t.Replaceable release es) (hvalid : t.Valid) :
    ∃ t', t.replaceEntries release es = .ok t' ∧ t'.Valid ∧ t'.EntriesOf release = es ∧
      (∃ entries, t' = { t with entries }) ∧
      ∀ other, other ≠ release → t'.EntriesOf other = t.EntriesOf other := by
  have hnumber := Param.fits_iff.mpr h.number
  by_cases hne : es = []
  · subst hne
    have hreplace : t.replaceEntries release [] =
        .ok { t with entries := t.entries.erase (·.value.owner == release) } := by
      rw [Tables.replaceEntries, Param.bind_of_fits hnumber]
      rfl
    refine ⟨_, hreplace, hvalid.replaceEntries hreplace, ?_, ⟨_, rfl⟩, fun other hother => ?_⟩
    · simp [EntriesOf, Table.erase, List.filter_filter]
    · refine congrArg (List.map _) ((replaceEntries_touched hreplace).2 _ fun r hr => ?_)
      rw [hr]
      exact beq_eq_false_iff_ne.mpr hother.symm
  · exact hvalid.replaceEntries_stores (h.there hne) hnumber
      (fun e he => (Param.entry_fits_iff hnumber).mpr
        ⟨h.texts e he, Param.fits_iff.mpr (h.positions e he)⟩) h.keys

/-! ### Entries that are read -/

/-- The entries of a release are read in the order of their positions. -/
theorem entriesOf_eq (t : Tables) (hrelease : (Param.number release).fault? = none) :
    t.entriesOf release =
      .ok ((t.EntriesOf release).mergeSort fun a b => a.position ≤ b.position) := by
  rw [entriesOf, Param.bind_of_fits hrelease]
  rfl

/-- Entries that are stored in the order of their positions are read as they are stored. -/
theorem entriesOf_sorted (hrelease : (Param.number release).fault? = none)
    (hsorted : (t.EntriesOf release).Pairwise (·.position ≤ ·.position)) :
    t.entriesOf release = .ok (t.EntriesOf release) := by
  rw [entriesOf_eq t hrelease, List.mergeSort_of_pairwise (hsorted.imp decide_eq_true)]

/-- What is read of a release depends on its entries only. -/
theorem entriesOf_congr (h : t'.EntriesOf release = t.EntriesOf release) :
    t'.entriesOf release = t.entriesOf release := by
  change (Param.bind _ >>= fun _ => _) = (Param.bind _ >>= fun _ => _)
  exact congrArg (fun es : List Entry => Param.bind [.number release] >>= fun _ =>
    Except.ok (es.mergeSort fun a b => a.position ≤ b.position)) h

end Tables

/-! ### Transactions -/

namespace Connection

variable {c : Connection} {statements : List Statement}

theorem committed_run (c : Connection) (statements : List Statement) :
    (c.run statements).1.committed = c.committed := by
  induction statements generalizing c with
  | nil => rfl
  | cons statement rest ih =>
    rw [run]
    split
    · exact ih _
    · rfl

theorem run_of_ok (h : statements.foldlM (fun t f => f t) c.current = .ok t') :
    c.run statements = ({ c with current := t' }, none) := by
  induction statements generalizing c with
  | nil =>
    cases h
    rfl
  | cons statement rest ih =>
    obtain ⟨u, hu, h⟩ := except_bind_eq_ok.mp ((List.foldlM_cons ..).symm.trans h)
    rw [run, hu]
    exact ih (c := { c with current := u }) h

theorem run_of_error {f : Fault} (h : statements.foldlM (fun t f => f t) c.current = .error f) :
    (c.run statements).2 = some f := by
  induction statements generalizing c with
  | nil => exact nomatch h
  | cons statement rest ih =>
    rw [List.foldlM_cons] at h
    rw [run]
    cases hstatement : statement c.current with
    | error g =>
      rw [hstatement] at h
      cases h
      rfl
    | ok u =>
      rw [hstatement] at h
      exact ih (c := { c with current := u }) h

/-- A transaction leaves what its statements make of the tables one after the other, or the tables
as they were, at whichever of the statements it fails. -/
theorem transact_idle (t : Tables) (statements : List Statement) :
    (idle t).transact statements = match statements.foldlM (fun t f => f t) t with
      | .ok t' => (idle t', none)
      | .error f => (idle t, some f) := by
  cases h : statements.foldlM (fun t f => f t) t with
  | ok t' => rw [transact, run_of_ok (c := idle t) h]
  | error f =>
    have hfault := run_of_error (c := idle t) h
    have hcommitted := committed_run (idle t) statements
    rw [transact]
    split
    · rename_i c' hrun
      rw [hrun] at hfault
      exact nomatch hfault
    · rename_i c' g hrun
      rw [hrun] at hfault hcommitted
      cases hfault
      exact congrArg (fun t => (idle t, some f)) hcommitted

end Connection

theorem foldlM_replacement (t : Tables) (release : Int) (es : List Entry) :
    (replacement release es).foldlM (fun t f => f t) t = t.replaceEntries release es := by
  rw [replacement, List.foldlM_cons, Tables.replaceEntries]
  cases Param.bind [.number release] with
  | error f => rfl
  | ok u => exact List.foldlM_map ..

/-! ### All or nothing -/

/-- In any reachable store the entries of a release are replaced, or the store stays as it was. They
are replaced exactly if they can be: then the release has the given entries, which are read in the
order of their positions, and all else is unchanged. Otherwise the transaction fails at some
statement, and those before it are undone. -/
theorem replaceEntries_all_or_nothing (calls : List Call) (release : Int) (es : List Entry) :
    let t := (ready.after calls).contents
    let s : Store := { ready.after calls with outOfOrder := [] }
    (∃ f, ¬t.Replaceable release es ∧ s.replaceEntries release es = .error f ∧
        (Connection.idle t).transact (replacement release es) = (.idle t, some f) ∧
        ready.after (calls ++ [⟨[], .replaceEntries release es⟩]) = ready.after calls) ∨
      ∃ t' listed, t.Replaceable release es ∧
        s.replaceEntries release es = .ok { s with tables := some t' } ∧
        (Connection.idle t).transact (replacement release es) = (.idle t', none) ∧
        t'.entriesOf release = .ok listed ∧ listed.Perm es ∧
        listed.Pairwise (·.position ≤ ·.position) ∧ (∃ entries, t' = { t with entries }) ∧
        ∀ other, other ≠ release → t'.entriesOf other = t.entriesOf other := by
  intro t s
  obtain ⟨htables, hvalid⟩ := ready_after calls
  have hwrite : s.replaceEntries release es =
      (t.replaceEntries release es).map fun t' => { s with tables := some t' } :=
    update_inOrder rfl htables
  have htransact := Connection.transact_idle t (replacement release es)
  rw [foldlM_replacement] at htransact
  by_cases h : t.Replaceable release es
  · obtain ⟨t', hreplace, -, hentries, hsame, hothers⟩ := h.stores hvalid
    rw [hreplace] at hwrite htransact
    have hnumber := Param.fits_iff.mpr h.number
    have hread := Tables.entriesOf_eq t' hnumber
    rw [hentries] at hread
    refine .inr ⟨t', _, h, hwrite, htransact, hread, List.mergeSort_perm _ _, ?_, hsame,
      fun other hother => Tables.entriesOf_congr (hothers other hother)⟩
    refine (List.pairwise_mergeSort ?_ ?_ es).imp of_decide_eq_true
    · exact fun a b c hab hbc => decide_eq_true
        (Int.le_trans (of_decide_eq_true hab) (of_decide_eq_true hbc))
    · intro a b
      simpa using Int.le_total a.position b.position
  · cases hreplace : t.replaceEntries release es with
    | ok t' => exact absurd (Tables.replaceable_of_ok hreplace) h
    | error f =>
      rw [hreplace] at hwrite htransact
      refine .inl ⟨f, h, hwrite, htransact, ?_⟩
      have houtcome : (⟨[], .replaceEntries release es⟩ : Call).outcome (ready.after calls) =
          .error f := congrArg silent hwrite
      rw [after_append, after, houtcome]
      rfl

/-- Nothing to add, no repeated key and no position that is too large do not suffice: the number of
the release can be too large itself. -/
theorem replaceEntries_refuses_large_number :
    ¬∀ (calls : List Call) (release : Int) (es : List Entry),
      let s : Store := { ready.after calls with outOfOrder := [] }
      (∃ f, s.replaceEntries release es = .error f ∧
          (¬es.Pairwise (·.key ≠ ·.key) ∨
            ((ready.after calls).contents.releases.has release = false ∧ es ≠ []) ∨
            ∃ e ∈ es, ¬(-(2 ^ 63) ≤ e.position ∧ e.position < 2 ^ 63))) ∨
        ∃ σ, s.replaceEntries release es = .ok σ := by
  intro h
  have hrefused : ({ ready.after [] with outOfOrder := [] } : Store).replaceEntries (2 ^ 63) [] =
      .error .numberTooLarge := rfl
  rcases h [] (2 ^ 63) [] with ⟨-, -, hkeys | ⟨-, hne⟩ | ⟨e, he, -⟩⟩ | ⟨σ, hσ⟩
  · exact hkeys .nil
  · exact hne rfl
  · exact absurd he List.not_mem_nil
  · exact nomatch hrefused.symm.trans hσ

/-! ### The entries of a parsed release -/

/-- The bullets of a release without lone surrogates make entries in the order of the document,
numbered from zero. Their keys are made of section, version and number, of digits, small letters and
hyphens only, and differ. So in any reachable store they replace the entries of any release that is
there, whatever entries it has, and are read back as they are, as many as 64 bits can number. -/
theorem entries_stored_and_read (resourcePrefix : Text) {r : Release} (hr : r.Unicode) :
    ∃ es, Changelog.entries resourcePrefix r = .ok es ∧
      es.map (fun e => (e.sectionName, e.title)) = Changelog.bullets r ∧
      es.map (·.position) = (List.range es.length).map Int.ofNat ∧
      (∀ e ∈ es, ∃ n : Nat, e.position = n ∧ e.key = Changelog.slug e.sectionName ++ "-" ++
        Changelog.slug r.version ++ "-" ++ Date.padded 3 n) ∧
      (∀ e ∈ es, ∀ p ∈ e.key, Changelog.IsKeyPoint p) ∧ es.Pairwise (·.key ≠ ·.key) ∧
      ∀ (calls : List Call) (id : Int), (ready.after calls).contents.releases.has id = true →
        id < 2 ^ 63 → es.length ≤ 2 ^ 63 →
          ∃ σ, ({ ready.after calls with outOfOrder := [] } : Store).replaceEntries id es = .ok σ ∧
            σ.entries id = .ok es := by
  have hes := Changelog.entries_eq_numbered resourcePrefix hr
  refine ⟨_, hes, Changelog.bullets_numberedEntries resourcePrefix r,
    by simpa using Changelog.positions_numberedEntries resourcePrefix r, fun e he => ?_,
    fun e he p hp => ?_, Changelog.numberedEntries_keys resourcePrefix r,
    fun calls id hrelease hid hlength => ?_⟩
  · obtain ⟨n, hn, -, hkey⟩ := Changelog.key_of_mem_numberedEntries he
    exact ⟨n, hn, hkey⟩
  · obtain ⟨n, -, -, hkey⟩ := Changelog.key_of_mem_numberedEntries he
    rw [hkey] at hp
    exact Changelog.isKeyPoint_of_mem_entryKey hp
  · obtain ⟨htables, hvalid⟩ := ready_after calls
    rw [Changelog.length_numberedEntries] at hlength
    have hpositive : 1 ≤ id := by
      obtain ⟨row, hrow, rfl⟩ := Table.has_iff.mp hrelease
      exact hvalid.releases.positive row hrow
    have hreplaceable : (ready.after calls).contents.Replaceable id
        (Changelog.numberedEntries resourcePrefix r) := {
      number := by omega
      there := fun _ => hrelease
      keys := Changelog.numberedEntries_keys resourcePrefix r
      texts := Changelog.numberedEntries_unicode resourcePrefix hr
      positions := fun e he => by
        obtain ⟨n, hn, hlt, -⟩ := Changelog.key_of_mem_numberedEntries he
        omega }
    obtain ⟨t', hreplace, -, hentries, -⟩ := hreplaceable.stores hvalid
    have hread := Tables.entriesOf_sorted (Param.fits_iff.mpr hreplaceable.number)
      (hentries ▸ Changelog.entries_sorted hes)
    rw [hentries] at hread
    have hwrite : ({ ready.after calls with outOfOrder := [] } : Store).replaceEntries id
        (Changelog.numberedEntries resourcePrefix r) = _ := update_inOrder rfl htables
    rw [hreplace] at hwrite
    exact ⟨_, hwrite, (read_inOrder rfl rfl).trans hread⟩

/-- A release of two sections whose names make the same slug. -/
def alikeSections : Release :=
  ⟨"1.0.0", "v1.0.0", none, [⟨"BUG FIXES", ["`p_a` is read"]⟩, ⟨"Bug-Fixes", [" ", "p_b is kept"]⟩]⟩

/-- Calls that leave a release with an entry. -/
def releaseCalls : List Call :=
  [⟨[], .insertRepository ⟨none, "x", "acme/x", none, [], none, none⟩⟩,
    ⟨[], .insertRelease 1 ⟨none, "1.0.0", "v1.0.0", none, none, none, none, none, none⟩⟩,
    ⟨[], .replaceEntries 1 [⟨"Notes", "bug-fixes-1-0-0-000", "x", none, none, none, none, 0⟩]⟩]

/-- Sections that are named alike make keys with different numbers, which take the place of a key
that is one of them. -/
theorem entries_stored_and_read_of_alike :
    ∃ es σ, Changelog.entries "p" alikeSections = .ok es ∧
      es.map (·.key) = ["bug-fixes-1-0-0-000", "bug-fixes-1-0-0-001"] ∧
      ({ ready.after releaseCalls with outOfOrder := [] } : Store).replaceEntries 1 es = .ok σ ∧
      σ.entries 1 = .ok es := by
  have hr : alikeSections.Unicode := ⟨by decide, by decide, nofun, by decide⟩
  obtain ⟨es, hes, -, -, -, -, -, hstored⟩ := entries_stored_and_read "p" hr
  let keys : List Text := ["bug-fixes-1-0-0-000", "bug-fixes-1-0-0-001"]
  have hkeys : (Changelog.entries "p" alikeSections).toOption.map (·.map (·.key)) = some keys := by
    decide +kernel
  rw [hes] at hkeys
  have hlength : es.length = 2 := by
    have := congrArg List.length (Option.some.inj hkeys)
    simpa [keys] using this
  obtain ⟨σ, hreplace, hread⟩ := hstored releaseCalls 1 (by decide +kernel) (by decide)
    (by rw [hlength]; decide)
  exact ⟨es, σ, hes, Option.some.inj hkeys, hreplace, hread⟩

end ProviderCatalog.Store
