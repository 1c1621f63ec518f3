import ProviderCatalog.Remote.Limiter
import Mathlib.Data.List.Induction
import Mathlib.Data.List.TakeDrop
import Mathlib.Data.List.Infix
import Mathlib.Tactic.SplitIfs

/-!
# Bursts of acquisitions

The tokens that a limiter has left are those that were not taken since its last refill, and one
refill is more than a window after the other. So between two refills no more tokens are taken than
the limiter holds, and within the time of one window at most twice as many, however the attempts to
take them are spread over time. There are twice as many if the limiter is emptied right before a
refill and right after it.

An attempt fails if all tokens were taken since the last refill and the time of the next one has not
passed. A limiter without any capacity has no token after a refill either, so there every attempt
fails.

## Main definitions

* `Attempt`, `Limiter.attempts`: what becomes of attempts at readings of the clock.
* `Attempt.sinceRefill`: the attempts from the last refill on.
* `Limiter.Accounts`: the tokens that are left, and the next refill, by the attempts before.

## Main results

* `Limiter.Accounts.acquire`: what an attempt preserves.
* `Limiter.Accounts.fails_iff`: when an attempt fails.
* `Limiter.bursts_bounded`: the bounds on acquisitions.
-/

namespace ProviderCatalog.Remote

/-- What becomes of asking for a token at a reading of the clock. -/
structure Attempt where
  time : Rat
  /-- Whether the limiter is refilled first. -/
  refills : Bool
  /-- Whether there is a token, which is taken. -/
  succeeds : Bool
deriving DecidableEq, Repr

namespace Attempt

/-- The attempts from the last one that refills on; all of them if none does. -/
def sinceRefill (as : List Attempt) : List Attempt :=
  as.foldl (fun recent a => if a.refills then [a] else recent ++ [a]) []

/-- The number of attempts that succeed. -/
def successes (as : List Attempt) : Nat := as.countP (·.succeeds)

/-- Whether an attempt falls into a closed interval. -/
def isWithin (first last : Rat) (a : Attempt) : Bool := first ≤ a.time && a.time ≤ last

variable {as bs : List Attempt} {a : Attempt} {first last window : Rat}

theorem sinceRefill_concat (as : List Attempt) (a : Attempt) :
    sinceRefill (as ++ [a]) = (if a.refills then [] else sinceRefill as) ++ [a] := by
  rw [sinceRefill, List.foldl_append]
  change (if a.refills then [a] else sinceRefill as ++ [a]) = _
  split <;> rfl

theorem successes_append (as bs : List Attempt) :
    successes (as ++ bs) = successes as + successes bs :=
  List.countP_append

theorem successes_singleton (a : Attempt) : successes [a] = if a.succeeds then 1 else 0 :=
  List.countP_singleton

/-- If two attempts refill then there is more than a window between them. -/
def Apart (window : Rat) (x y : Attempt) : Prop :=
  x.refills = true → y.refills = true → window < y.time - x.time

/-- Attempts of which only the first may refill end the attempts since the last refill. -/
theorem suffix_sinceRefill (before : List Attempt) (h : ∀ x ∈ as.tail, x.refills = false) :
    as <:+ sinceRefill (before ++ as) := by
  induction as using List.reverseRecOn with
  | nil => exact List.nil_suffix
  | append_singleton as a ih =>
    rw [← List.append_assoc, sinceRefill_concat]
    cases as with
    | nil => exact List.suffix_append _ _
    | cons b as =>
      -- the last attempt is not the first one, so it does not refill
      rw [List.cons_append, List.tail_cons, List.forall_mem_append] at h
      rw [h.2 a (List.mem_singleton_self a), if_neg Bool.false_ne_true]
      exact (List.suffix_append_inj_of_length_eq rfl).mpr ⟨ih h.1, rfl⟩

/-- A list begins with the elements of a class if none of them comes after one outside it. -/
private theorem filter_append_filter_not {p : Attempt → Bool}
    (h : as.Pairwise fun x y => p y = true → p x = true) :
    as.filter p ++ as.filter (!p ·) = as := by
  induction as with
  | nil => rfl
  | cons a as ih =>
    obtain ⟨hfirst, hrest⟩ := List.pairwise_cons.mp h
    cases hp : p a with
    | true => simp [hp, ih hrest]
    | false =>
      have hnone : ∀ x ∈ as, p x = false := fun x hx =>
        Bool.eq_false_iff.mpr fun hx' => Bool.false_ne_true (hp.symm.trans (hfirst x hx hx'))
      rw [List.filter_cons_of_neg (by rw [hp]; exact Bool.false_ne_true),
        List.filter_eq_nil_iff.mpr fun x hx => by rw [hnone x hx]; exact Bool.false_ne_true,
        List.nil_append, List.filter_eq_self]
      exact List.forall_mem_cons.mpr ⟨by rw [hp]; rfl, fun x hx => by rw [hnone x hx]; rfl⟩

/-- The attempts of an interval follow one another. -/
theorem exists_append_filter_isWithin (h : as.Pairwise (·.time ≤ ·.time)) (first last : Rat) :
    ∃ before after, before ++ as.filter (isWithin first last) ++ after = as := by
  have hlate := filter_append_filter_not (p := fun a => decide (a.time < first))
    (h.imp fun {x y} hxy hy => by grind)
  have hearly := filter_append_filter_not (p := fun a => decide (a.time ≤ last))
    ((h.filter fun a => !decide (a.time < first)).imp fun {x y} hxy hy => by grind)
  have hwithin : (as.filter fun a => !decide (a.time < first)).filter (fun a => a.time ≤ last) =
      as.filter (isWithin first last) := by
    rw [List.filter_filter]
    refine List.filter_congr fun a _ => ?_
    grind [isWithin]
  rw [hwithin] at hearly
  exact ⟨_, _, by rw [List.append_assoc, hearly, hlate]⟩

/-- Attempts within one window are those before a refill and those from it on. -/
private theorem exists_refill (h : as.Pairwise (Apart window)) (hshort : last - first ≤ window)
    (hwithin : ∀ x ∈ as, first ≤ x.time ∧ x.time ≤ last) :
    ∃ early late, as = early ++ late ∧ (∀ x ∈ early, x.refills = false) ∧
      ∀ x ∈ late.tail, x.refills = false := by
  induction as with
  | nil => exact ⟨[], [], rfl, nofun, nofun⟩
  | cons a as ih =>
    obtain ⟨hfirst, hrest⟩ := List.pairwise_cons.mp h
    obtain ⟨ha, hwithin⟩ := List.forall_mem_cons.mp hwithin
    cases hrefills : a.refills with
    | true =>
      refine ⟨[], a :: as, rfl, nofun, fun x hx => Bool.eq_false_iff.mpr fun hx' => ?_⟩
      have hwide := hfirst x hx hrefills hx'
      have hx := hwithin x hx
      grind
    | false =>
      obtain ⟨early, late, rfl, hearly, hlate⟩ := ih hrest hwithin
      exact ⟨a :: early, late, rfl, List.forall_mem_cons.mpr ⟨hrefills, hearly⟩, hlate⟩

end Attempt

/-! ### The tokens that are left -/

namespace Limiter

open Attempt

/-- The attempt at a reading of the clock. -/
def attempt (l : Limiter) (now : Rat) : Attempt := ⟨now, l.refillAt < now, (l.acquire now).1⟩

/-- The limiter after attempts at readings of the clock. -/
def after (l : Limiter) (times : List Rat) : Limiter :=
  times.foldl (fun l now => (l.acquire now).2) l

/-- The attempts at readings of the clock, one after the other. -/
def attempts (l : Limiter) : List Rat → List Attempt
  | [] => []
  | now :: times => l.attempt now :: (l.acquire now).2.attempts times

theorem attempts_append (l : Limiter) (times times' : List Rat) :
    l.attempts (times ++ times') = l.attempts times ++ (l.after times).attempts times' := by
  induction times generalizing l with
  | nil => rfl
  | cons now times ih => exact congrArg _ (ih _)

theorem after_append (l : Limiter) (times times' : List Rat) :
    l.after (times ++ times') = (l.after times).after times' :=
  List.foldl_append

theorem times_attempts (l : Limiter) (times : List Rat) :
    (l.attempts times).map (·.time) = times := by
  induction times generalizing l with
  | nil => rfl
  | cons now times ih => exact congrArg _ (ih _)

/-- The first attempts are those at the first readings. -/
theorem exists_of_attempts_eq_append {l : Limiter} {times : List Rat} {as bs : List Attempt}
    (h : l.attempts times = as ++ bs) : ∃ before, before <+: times ∧ l.attempts before = as := by
  refine ⟨times.take as.length, List.take_prefix _ _, ?_⟩
  have hlength : (l.attempts (times.take as.length)).length = as.length := by
    have htimes := congrArg List.length (l.times_attempts (times.take as.length))
    have hboth := congrArg List.length (l.times_attempts times)
    rw [h] at hboth
    simp only [List.length_map, List.length_take, List.length_append] at htimes hboth
    omega
  rw [← List.take_append_drop as.length times, attempts_append] at h
  exact List.append_inj_left h hlength

section Acquire

variable {l : Limiter} {now : Rat}

theorem acquire_capacity : (l.acquire now).2.capacity = l.capacity := by
  simp only [acquire, refilled, full]
  split_ifs <;> rfl

theorem acquire_window : (l.acquire now).2.window = l.window := by
  simp only [acquire, refilled, full]
  split_ifs <;> rfl

theorem acquire_refillAt :
    (l.acquire now).2.refillAt = if l.refillAt < now then now + l.window else l.refillAt := by
  simp only [acquire, refilled, full]
  split_ifs <;> rfl

/-- A token is taken if the attempt succeeds. -/
theorem acquire_remaining :
    (l.acquire now).2.remaining + successes [l.attempt now] = (l.refilled now).remaining := by
  rw [successes_singleton, attempt, acquire]
  split <;> simp

theorem acquire_nonneg (h : 0 ≤ (l.refilled now).remaining) : 0 ≤ (l.acquire now).2.remaining := by
  rw [acquire]
  split
  · exact Int.sub_nonneg_of_le ‹_›
  · exact h

end Acquire

/-- What a limiter has come to after attempts: it has the tokens that were not taken since the last
refill, and is due for the next one a window after the last or later. -/
structure Accounts (capacity : Int) (window : Rat) (as : List Attempt) (l : Limiter) : Prop where
  capacity_eq : l.capacity = capacity
  window_eq : l.window = window
  nonneg : 0 ≤ l.remaining
  tokens : l.remaining + successes (sinceRefill as) = capacity
  due : ∀ x ∈ as, x.refills = true → x.time + window ≤ l.refillAt

variable {capacity : Int} {window : Rat} {as : List Attempt} {l : Limiter}

theorem accounts_full (hcapacity : 0 ≤ capacity) (start : Rat) :
    Accounts capacity window [] (full capacity window start) :=
  ⟨rfl, rfl, hcapacity, Int.add_zero _, nofun⟩

namespace Accounts

/-- The tokens that are left when an attempt has refilled the limiter if that was due. -/
private theorem refilled (h : Accounts capacity window as l) (hcapacity : 0 ≤ capacity)
    (now : Rat) : 0 ≤ (l.refilled now).remaining ∧ (l.refilled now).remaining +
      successes (if (l.attempt now).refills then [] else sinceRefill as) = capacity := by
  simp only [Limiter.refilled, attempt, decide_eq_true_eq]
  split
  · exact ⟨h.capacity_eq ▸ hcapacity, (Int.add_zero _).trans h.capacity_eq⟩
  · exact ⟨h.nonneg, h.tokens⟩

/-- An attempt fails if there is no capacity, or if all tokens were taken since the last refill and
the next one is not due. -/
theorem fails_iff (h : Accounts capacity window as l) (hcapacity : 0 ≤ capacity) (now : Rat) :
    (l.acquire now).1 = false ↔ capacity = 0 ∨
      (successes (sinceRefill as) : Int) = capacity ∧ now ≤ l.refillAt := by
  obtain ⟨hnonneg, htokens⟩ := h.refilled hcapacity now
  have hfails : (l.acquire now).1 = false ↔ (l.refilled now).remaining ≤ 0 := by
    rw [acquire]
    split
    · exact ⟨nofun, fun _ => by omega⟩
    · exact ⟨fun _ => by omega, fun _ => rfl⟩
  rw [hfails]
  split at htokens
  · rename_i hdue
    have hempty : (successes [] : Int) = 0 := rfl
    have hlate : ¬now ≤ l.refillAt := Rat.not_le.mpr (of_decide_eq_true hdue)
    simp only [hlate, and_false, or_false]
    omega
  · rename_i hdue
    have hearly : now ≤ l.refillAt := Rat.not_lt.mp fun h => hdue (decide_eq_true h)
    simp only [hearly, and_true]
    omega

theorem remaining_le (h : Accounts capacity window as l) : l.remaining ≤ capacity := by
  have htokens := h.tokens
  omega

/-- What an attempt preserves. -/
theorem acquire (h : Accounts capacity window as l) (hcapacity : 0 ≤ capacity)
    (hwindow : 0 < window) (now : Rat) :
    Accounts capacity window (as ++ [l.attempt now]) (l.acquire now).2 := by
  obtain ⟨hnonneg, htokens⟩ := h.refilled hcapacity now
  constructor
  case capacity_eq => rw [acquire_capacity, h.capacity_eq]
  case window_eq => rw [acquire_window, h.window_eq]
  case nonneg => exact acquire_nonneg hnonneg
  case tokens =>
    rw [← acquire_remaining] at htokens
    rw [sinceRefill_concat, successes_append]
    omega
  case due =>
    rw [acquire_refillAt]
    intro x hx hrefills
    rcases List.mem_append.mp hx with hx | hx
    · have hdue := h.due x hx hrefills
      split
      · rename_i hlate
        rw [h.window_eq]
        grind
      · exact hdue
    · cases List.mem_singleton.mp hx
      rw [if_pos (of_decide_eq_true hrefills), h.window_eq]
      exact Rat.le_refl

/-- A refill comes more than a window after those before it. -/
theorem window_lt (h : Accounts capacity window as l) {now : Rat}
    (hrefills : (l.attempt now).refills = true) :
    ∀ x ∈ as, x.refills = true → window < now - x.time := by
  intro x hx hx'
  have hlate : l.refillAt < now := of_decide_eq_true hrefills
  have hdue := h.due x hx hx'
  grind

end Accounts

/-- Where attempts lead a full limiter. -/
theorem accounts_after (hcapacity : 0 ≤ capacity) (hwindow : 0 < window) (start : Rat)
    (times : List Rat) : Accounts capacity window
      ((full capacity window start).attempts times) ((full capacity window start).after times) := by
  induction times using List.reverseRecOn with
  | nil => exact accounts_full hcapacity start
  | append_singleton times now ih =>
    rw [attempts_append, after_append]
    exact ih.acquire hcapacity hwindow now

/-- Refills are more than a window apart. -/
theorem refills_apart (hcapacity : 0 ≤ capacity) (hwindow : 0 < window) (start : Rat)
    (times : List Rat) :
    ((full capacity window start).attempts times).Pairwise (Apart window) := by
  induction times using List.reverseRecOn with
  | nil => exact .nil
  | append_singleton times now ih =>
    have hafter := accounts_after hcapacity hwindow start times
    rw [attempts_append, List.pairwise_append]
    refine ⟨ih, List.pairwise_singleton _ _, fun x hx y hy hx' hy' => ?_⟩
    cases List.mem_singleton.mp hy
    exact hafter.window_lt hy' x hx hx'

/-- Between two refills no more tokens are taken than the limiter holds. -/
theorem successes_le (hcapacity : 0 ≤ capacity) (hwindow : 0 < window) (start : Rat)
    {times : List Rat} {before later : List Attempt}
    (h : (full capacity window start).attempts times = before ++ as ++ later)
    (hrefills : ∀ x ∈ as.tail, x.refills = false) : (successes as : Int) ≤ capacity := by
  obtain ⟨times', -, htimes'⟩ := exists_of_attempts_eq_append h
  have hafter := accounts_after hcapacity hwindow start times'
  rw [htimes'] at hafter
  have hrecent : successes as ≤ successes (sinceRefill (before ++ as)) :=
    (suffix_sinceRefill before hrefills).sublist.countP_le
  have htokens := hafter.tokens
  have hnonneg := hafter.nonneg
  omega

/-- Within one window no more than twice as many tokens are taken: there is at most one refill. -/
theorem successes_within_le (hcapacity : 0 ≤ capacity) (hwindow : 0 < window) (start : Rat)
    {times : List Rat} (htimes : times.Pairwise (· ≤ ·)) {first last : Rat}
    (hshort : last - first ≤ window) :
    (successes (((full capacity window start).attempts times).filter (isWithin first last)) : Int) ≤
      2 * capacity := by
  have hsorted : ((full capacity window start).attempts times).Pairwise (·.time ≤ ·.time) := by
    rw [← List.pairwise_map (f := Attempt.time), times_attempts]
    exact htimes
  obtain ⟨before, later, hsplit⟩ := exists_append_filter_isWithin hsorted first last
  have hinterval : ∀ x ∈ ((full capacity window start).attempts times).filter (isWithin first last),
      first ≤ x.time ∧ x.time ≤ last := by
    intro x hx
    simpa [isWithin] using (List.mem_filter.mp hx).2
  have hapart : (((full capacity window start).attempts times).filter
      (isWithin first last)).Pairwise (Apart window) :=
    (refills_apart hcapacity hwindow start times).filter _
  obtain ⟨early, late, hboth, hearly, hlate⟩ := exists_refill hapart hshort hinterval
  rw [hboth] at hsplit ⊢
  have hfew : (successes early : Int) ≤ capacity := by
    rw [List.append_assoc, List.append_assoc, ← List.append_assoc] at hsplit
    exact successes_le hcapacity hwindow start hsplit.symm fun x hx =>
      hearly x (List.mem_of_mem_tail hx)
  have hfew' : (successes late : Int) ≤ capacity := by
    rw [← List.append_assoc] at hsplit
    exact successes_le hcapacity hwindow start hsplit.symm hlate
  rw [successes_append]
  omega

/-- The bounds on acquisitions at readings of the clock that do not go back. There are never fewer
tokens than none nor more than the limiter holds. An attempt fails just if the limiter holds none,
or if all tokens were taken since the last refill and the next one is not due. Refills are more than
a window apart. Within one window at most twice as many tokens are taken as the limiter holds, and
between two refills at most as many. -/
theorem bursts_bounded (hcapacity : 0 ≤ capacity) (hwindow : 0 < window) (start : Rat)
    {times : List Rat} (htimes : times.Pairwise (· ≤ ·)) :
    let l := full capacity window start
    let as := l.attempts times
    (∀ before, before <+: times →
      0 ≤ (l.after before).remaining ∧ (l.after before).remaining ≤ capacity) ∧
    (∀ before now, before ++ [now] <+: times →
      (((l.after before).acquire now).1 = false ↔ capacity = 0 ∨
        (successes (sinceRefill (l.attempts before)) : Int) = capacity ∧
          now ≤ (l.after before).refillAt)) ∧
    as.Pairwise (Apart window) ∧
    (∀ first last, last - first ≤ window →
      (successes (as.filter (isWithin first last)) : Int) ≤ 2 * capacity) ∧
    ∀ before between later, as = before ++ between ++ later →
      (∀ x ∈ between.tail, x.refills = false) → (successes between : Int) ≤ capacity := by
  intro l as
  have hafter (before : List Rat) := accounts_after hcapacity hwindow start before
  exact ⟨fun before _ => ⟨(hafter before).nonneg, (hafter before).remaining_le⟩,
    fun before now _ => (hafter before).fails_iff hcapacity now,
    refills_apart hcapacity hwindow start times,
    fun first last hshort => successes_within_le hcapacity hwindow start htimes hshort,
    fun before between later hsplit => successes_le hcapacity hwindow start hsplit⟩

/-- The limit is reached if all tokens are taken right before a refill and right after it. -/
example : successes
    (((full 2 10 0).attempts [10, 10, 11, 11, 11]).filter (isWithin 10 11)) = 4 := by
  decide +kernel

theorem bursts_bounded_of_three : (0 : Int) ≤ 3 ∧ (0 : Rat) < 3600 ∧
    ([0, 0, 0, 0, 3600, 3601, 3601] : List Rat).Pairwise (· ≤ ·) ∧
    (((full 3 3600 0).after [0, 0, 0]).acquire 0).1 = false ∧
    (successes (((full 3 3600 0).attempts [0, 0, 0, 0, 3600, 3601, 3601]).filter
      (isWithin 1 3601)) : Int) ≤ 2 * 3 := by
  have hcapacity : (0 : Int) ≤ 3 := by decide
  have hwindow : (0 : Rat) < 3600 := by decide
  have htimes : ([0, 0, 0, 0, 3600, 3601, 3601] : List Rat).Pairwise (· ≤ ·) := by decide
  obtain ⟨-, hfails, -, hwithin, -⟩ := bursts_bounded hcapacity hwindow 0 htimes
  have htaken : (successes (sinceRefill ((full 3 3600 0).attempts [0, 0, 0])) : Int) = 3 ∧
      (0 : Rat) ≤ ((full 3 3600 0).after [0, 0, 0]).refillAt := by decide +kernel
  have hempty := (hfails [0, 0, 0] 0 ⟨[3600, 3601, 3601], rfl⟩).mpr (.inr htaken)
  exact ⟨hcapacity, hwindow, htimes, hempty, hwithin 1 3601 (by decide +kernel)⟩

/-- A limiter that holds no tokens has none after a refill either. So an attempt can fail although
the time of the next refill has passed. -/
theorem fails_past_due : ¬∀ (capacity : Int) (window start now : Rat) (before : List Rat),
    0 ≤ capacity → 0 < window → (before ++ [now]).Pairwise (· ≤ ·) →
      ((((full capacity window start).after before).acquire now).1 = false ↔
        (successes (sinceRefill ((full capacity window start).attempts before)) : Int) = capacity ∧
          now ≤ ((full capacity window start).after before).refillAt) := by
  intro h
  have hfails : (((full 0 1 0).after []).acquire 2).1 = false := by decide +kernel
  have hdue := ((h 0 1 0 2 [] (by decide) (by decide) (by decide)).mp hfails).2
  exact absurd hdue (by decide +kernel)

end Limiter

end ProviderCatalog.Remote
