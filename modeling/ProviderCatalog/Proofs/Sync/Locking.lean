import ProviderCatalog.Proofs.Sync.Effect
import Mathlib.Data.Finset.Basic

/-!
# Locks as a set of names

Locks answer calls as a set of names does, in which a name is put when its lock is taken and from
which it is removed when the lock is given back. So does a table of locks that are made when they
are first wanted and stay in the table from then on: what was made does not matter, only what is
held.

A sync takes the lock of its repository, holds it while its steps run, and gives it back however
they end. If the lock is held already, the sync ends at once, and the holder keeps its lock.

## Main definitions

* `replies`: the answers to calls one after another.
* `answerHeld`: how a set of names answers.
* `LockTable.Holds`: the locks of a table that are held.

## Main results

* `replies_agree`: what agrees on each call agrees on all sequences of calls.
* `Locks.answer_agrees`, `LockTable.answer_agrees`: locks and tables of locks agree with sets.
* `syncRepository_locks`: a sync leaves the locks as they were.
* `locks_held_during_sync`: locks are a set of names, and are held during a sync.
-/

namespace ProviderCatalog.Sync

open ProviderCatalog.Configuration (RepositorySource)

variable {α β : Type}

/-! ### Calls and their answers -/

/-- The answers to calls one after another, where some calls have none, and what they lead to. -/
def replies (answer : α → LockCall → Option Bool × α) : α → List LockCall → List (Option Bool) × α
  | a, [] => ([], a)
  | a, c :: calls =>
    let rest := replies answer (answer a c).2 calls
    ((answer a c).1 :: rest.1, rest.2)

/-- What agrees on each call, and still does after it, agrees on all sequences of calls. -/
theorem replies_agree {f : α → LockCall → Option Bool × α} {g : β → LockCall → Option Bool × β}
    {R : α → β → Prop}
    (hstep : ∀ a b c, R a b → (f a c).1 = (g b c).1 ∧ R (f a c).2 (g b c).2) {a : α} {b : β}
    (h : R a b) (calls : List LockCall) :
    (replies f a calls).1 = (replies g b calls).1 ∧
      R (replies f a calls).2 (replies g b calls).2 := by
  induction calls generalizing a b with
  | nil => exact ⟨rfl, h⟩
  | cons c calls ih =>
    obtain ⟨hanswer, hnext⟩ := hstep a b c h
    obtain ⟨hrest, hend⟩ := ih hnext
    refine ⟨?_, hend⟩
    rw [replies, replies, hanswer, hrest]

/-- A set of names answers: a name is taken if it is not in the set, and is in it afterwards, and
one that is given back is the only one to leave the set. -/
def answerHeld (held : Finset Text) : LockCall → Option Bool × Finset Text
  | .acquire n => if n ∈ held then (some false, held) else (some true, insert n held)
  | .release n => (none, held.erase n)
  | .isHeld n => (some (decide (n ∈ held)), held)

/-! ### Locks -/

namespace Locks

theorem isHeld_iff {l : Locks} {n : Text} : l.isHeld n = true ↔ n ∈ l.held.toFinset := by
  rw [isHeld, List.contains_iff_mem, List.mem_toFinset]

/-- Locks agree with the set of the names that are held. -/
theorem answer_agrees (l : Locks) (held : Finset Text) (c : LockCall)
    (h : l.held.toFinset = held) :
    (l.answer c).1 = (answerHeld held c).1 ∧
      (l.answer c).2.held.toFinset = (answerHeld held c).2 := by
  subst h
  cases c with
  | acquire n =>
    rw [answer, answerHeld, acquire?]
    by_cases hn : n ∈ l.held.toFinset
    · rw [if_pos (isHeld_iff.mpr hn), if_pos hn]
      exact ⟨rfl, rfl⟩
    · rw [if_neg (isHeld_iff.not.mpr hn), if_neg hn]
      exact ⟨rfl, List.toFinset_cons⟩
  | release n =>
    refine ⟨rfl, ?_⟩
    ext m
    simp [answer, answerHeld, release, and_comm]
  | isHeld n =>
    refine ⟨congrArg some ?_, rfl⟩
    rw [Bool.eq_iff_iff, decide_eq_true_iff]
    exact isHeld_iff

end Locks

/-! ### Tables of locks -/

namespace LockTable

/-- The names of the locks of a table that are held. -/
def Holds (t : LockTable) (held : Finset Text) : Prop := ∀ n, t.locked n = true ↔ n ∈ held

theorem locked_set (t : LockTable) (n m : Text) (b : Bool) :
    (t.set n b).locked m = if m = n then b else t.locked m := by
  rw [locked, set]
  split <;> rfl

/-- A table of locks agrees with the set of the names that are held. -/
theorem answer_agrees (t : LockTable) (held : Finset Text) (c : LockCall) (h : t.Holds held) :
    (t.answer c).1 = (answerHeld held c).1 ∧ (t.answer c).2.Holds (answerHeld held c).2 := by
  cases c with
  | acquire n =>
    rw [answer, answerHeld]
    dsimp only
    rw [locked_set, if_pos rfl]
    have hn := h n
    by_cases hmem : n ∈ held
    · rw [if_pos hmem, hn.mpr hmem]
      refine ⟨rfl, fun m => ?_⟩
      rw [locked_set]
      split
      · rename_i hm
        simpa [hm] using hmem
      · rename_i hm
        rw [locked_set, if_neg hm]
        exact h m
    · rw [if_neg hmem, Bool.eq_false_iff.mpr (hn.not.mpr hmem)]
      refine ⟨rfl, fun m => ?_⟩
      rw [locked_set, Finset.mem_insert]
      split
      · rename_i hm
        simp [hm]
      · rename_i hm
        rw [locked_set, if_neg hm]
        simp [hm, h m]
  | release n =>
    refine ⟨rfl, fun m => ?_⟩
    rw [answer, answerHeld, Finset.mem_erase]
    dsimp only
    cases hn : t.locked n with
    | true =>
      rw [if_pos rfl, locked_set]
      split
      · rename_i hm
        simp [hm]
      · rename_i hm
        simp [hm, h m]
    | false =>
      rw [if_neg Bool.false_ne_true, h m]
      refine ⟨fun hm => ⟨?_, hm⟩, And.right⟩
      rintro rfl
      exact absurd ((h m).mpr hm) (hn ▸ Bool.false_ne_true)
  | isHeld n =>
    refine ⟨congrArg some ?_, h⟩
    rw [Bool.eq_iff_iff, decide_eq_true_iff]
    exact h n

end LockTable

/-! ### The lock of a sync -/

section Syncs

variable (p : Plan) (remote : Remote) (s : Remote.Summary) (r : RepositorySource) (σ : State)

/-- The steps of a sync leave the locks as they are. -/
theorem syncSteps_locks : ((syncSteps p remote s r).run.run σ).2.locks = σ.locks := by
  cases ht : σ.store.tables with
  | none =>
    obtain ⟨f, hrun⟩ := syncSteps_noTables p remote s r ht
    rw [hrun]
  | some t => exact (syncSteps_synced p remote s r σ ht).locks

/-- What a sync does, by its lock: if that is held, it ends without having done anything; if it is
free, it is held while the steps run, and free again afterwards. -/
theorem syncRepository_locks :
    let run := (syncRepository p remote s r).run σ
    run.2.locks = σ.locks ∧
      (σ.locks.isHeld s.fullName = true → run.1 = failed s heldReason ∧
        run.2 = { σ with log := σ.log ++ linesAbout (failed s heldReason) }) ∧
      (σ.locks.isHeld s.fullName = false →
        let taken : Locks := ⟨s.fullName :: σ.locks.held⟩
        let steps := (syncSteps p remote s r).run.run { σ with locks := taken }
        σ.locks.acquire? s.fullName = some taken ∧ steps.2.locks = taken ∧
          run = (told s steps.1, { steps.2 with
            locks := σ.locks
            log := steps.2.log ++ linesAbout (told s steps.1) })) := by
  intro run
  have hlocks : run.2.locks = σ.locks := (syncRepository_synced p remote r s σ).1
  refine ⟨hlocks, fun h => ?_, fun h => ?_⟩
  · have hrun : run = _ := syncRepository_held p remote r h
    rw [hrun]
    exact ⟨rfl, rfl⟩
  · intro taken steps
    have hrun : run = _ := syncRepository_free p remote r h
    have hgiven : steps.2.locks.release s.fullName = σ.locks := by
      rw [hrun] at hlocks
      exact hlocks
    refine ⟨?_, syncSteps_locks p remote s r { σ with locks := taken }, ?_⟩
    · rw [Locks.acquire?, h]
      rfl
    · rw [← hgiven]
      exact hrun

end Syncs

/-- Locks, and tables of locks, answer all calls as the set of the names that are held does. A sync
leaves the locks as they were. If the lock of its repository is held, it fails at once: nothing but
a line of the log is different afterwards, whatever the remote side would have answered. If the lock
is free, it is held while the steps of the sync run, however they end. -/
theorem locks_held_during_sync :
    (∀ (l : Locks) (calls : List LockCall),
      (replies Locks.answer l calls).1 = (replies answerHeld l.held.toFinset calls).1 ∧
        (replies Locks.answer l calls).2.held.toFinset =
          (replies answerHeld l.held.toFinset calls).2) ∧
    (∀ (t : LockTable) (held : Finset Text), t.Holds held → ∀ calls,
      (replies LockTable.answer t calls).1 = (replies answerHeld held calls).1 ∧
        (replies LockTable.answer t calls).2.Holds (replies answerHeld held calls).2) ∧
    ∀ (p : Plan) (remote : Remote) (s : Remote.Summary) (r : RepositorySource) (σ : State),
      let run := (syncRepository p remote s r).run σ
      run.2.locks = σ.locks ∧
        (σ.locks.isHeld s.fullName = true → run.1.success = false ∧
          run.1 = failed s heldReason ∧ run.2.locks.isHeld s.fullName = true ∧
            run.2 = { σ with log := σ.log ++ linesAbout (failed s heldReason) }) ∧
        (σ.locks.isHeld s.fullName = false →
          let taken : Locks := ⟨s.fullName :: σ.locks.held⟩
          let steps := (syncSteps p remote s r).run.run { σ with locks := taken }
          σ.locks.acquire? s.fullName = some taken ∧ steps.2.locks = taken ∧
            run = (told s steps.1, { steps.2 with
              locks := σ.locks
              log := steps.2.log ++ linesAbout (told s steps.1) })) := by
  refine ⟨fun l calls => ?_, fun t held h calls => ?_, fun p remote s r σ => ?_⟩
  · exact replies_agree (R := fun (l : Locks) held => l.held.toFinset = held)
      Locks.answer_agrees rfl calls
  · exact replies_agree LockTable.answer_agrees h calls
  · obtain ⟨hlocks, hheld, hfree⟩ := syncRepository_locks p remote s r σ
    refine ⟨hlocks, fun h => ?_, hfree⟩
    obtain ⟨hresult, hrun⟩ := hheld h
    exact ⟨hresult ▸ rfl, hresult, hlocks ▸ h, hrun⟩

end ProviderCatalog.Sync
