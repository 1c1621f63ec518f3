import ProviderCatalog.Proofs.Go.Literals
import Mathlib.Data.List.Induction
import Mathlib.Data.Nat.Digits.Defs

/-!
# The numbers that integer literals denote

The beginning of an integer literal tells its base: `0x` stands for sixteen, `0b` for two, `0o` or a
zero alone for eight, and without any of them the base is ten. The digits can have single
underscores between them and, behind such a beginning, one in front of them. The scanner takes these
literals for integers and no others, and each is read with the number that its digits denote in its
base, unless it is a decimal one with too many digits.

## Main definitions

* `IsDigits`, `IsPaddedDigits`: digits with underscores.
* `numberOf`: the number that digits denote in a base.
* `IsInteger`: the literals with the numbers that they denote.

## Main results

* `intOfDigits?_eq_some`: the number that a literal is read with.
* `isInteger_of_tokenLength?`, `tokenLength?_of_isInteger`: the literals are the integer tokens.
* `Node.intValue?_exact`: the number that an expression is read with.
-/

namespace ProviderCatalog.Go

variable {p : Char → Bool} {base n v : Nat} {c : Char} {cs text : List Char}

/-! ### Literals -/

/-- One or more digits of a class, with single underscores allowed between them. -/
inductive IsDigits (p : Char → Bool) : List Char → Prop where
  | last {c : Char} (h : p c = true) : IsDigits p [c]
  | digit {c : Char} {cs : List Char} (h : p c = true) (hcs : IsDigits p cs) : IsDigits p (c :: cs)
  | separated {c : Char} {cs : List Char} (h : p c = true) (hcs : IsDigits p cs) :
      IsDigits p (c :: '_' :: cs)

/-- Digits that an underscore may precede. -/
inductive IsPaddedDigits (p : Char → Bool) : List Char → Prop where
  | plain {cs : List Char} (h : IsDigits p cs) : IsPaddedDigits p cs
  | padded {cs : List Char} (h : IsDigits p cs) : IsPaddedDigits p ('_' :: cs)

/-- The value of a digit in bases up to sixteen. -/
def digitValue (c : Char) : Nat := "0123456789abcdef".toList.idxOf c.toLower

/-- The digits without the underscores between them. -/
def significant (cs : List Char) : List Char := cs.filter (· != '_')

/-- The number that digits denote in a base. -/
def numberOf (base : Nat) (cs : List Char) : Nat :=
  Nat.ofDigits base ((significant cs).reverse.map digitValue)

/-- The integer literals, each with the number that it denotes. -/
inductive IsInteger : List Char → Nat → Prop where
  | zero : IsInteger ['0'] 0
  | decimal {c : Char} {cs : List Char} (hc : c ≠ '0') (h : IsDigits Char.isDigit (c :: cs)) :
      IsInteger (c :: cs) (numberOf 10 (c :: cs))
  | hexadecimal {x : Char} {cs : List Char} (hx : x = 'x' ∨ x = 'X')
      (h : IsPaddedDigits isHex cs) : IsInteger ('0' :: x :: cs) (numberOf 16 cs)
  | binary {x : Char} {cs : List Char} (hx : x = 'b' ∨ x = 'B') (h : IsPaddedDigits isBinary cs) :
      IsInteger ('0' :: x :: cs) (numberOf 2 cs)
  | octal {x : Char} {cs : List Char} (hx : x = 'o' ∨ x = 'O') (h : IsPaddedDigits isOctal cs) :
      IsInteger ('0' :: x :: cs) (numberOf 8 cs)
  | leadingZero {cs : List Char} (h : IsPaddedDigits isOctal cs) :
      IsInteger ('0' :: cs) (numberOf 8 cs)

/-! ### Digits -/

/-- The digits of a base, which have the values that they are read with. -/
structure IsDigitClass (p : Char → Bool) (base : Nat) : Prop where
  value_eq {c : Char} (h : p c = true) : Node.digitOf c = digitValue c
  value_lt {c : Char} (h : p c = true) : Node.digitOf c < base
  hexadecimal {c : Char} (h : p c = true) : isHex c = true

theorem toNat_lt_of_isHex (h : isHex c = true) : c.toNat < 128 := by
  simp only [isHex, Char.isDigit, Bool.or_eq_true, Bool.and_eq_true, decide_eq_true_eq,
    Char.le_def, UInt32.le_iff_toNat_le] at h
  have hdigit : ('9' : Char).val.toNat = 57 := rfl
  have hsmall : ('f' : Char).val.toNat = 102 := rfl
  have hcapital : ('F' : Char).val.toNat = 70 := rfl
  change c.val.toNat < 128
  omega

theorem isHex_of_isDigit (h : c.isDigit = true) : isHex c = true := by
  simp [isHex, h]

theorem isDigit_of_isOctal (h : isOctal c = true) : c.isDigit = true := by
  simp only [isOctal, Char.isDigit, Bool.and_eq_true, decide_eq_true_eq, Char.le_def,
    UInt32.le_iff_toNat_le] at h ⊢
  exact ⟨h.1, Nat.le_trans h.2 (by decide)⟩

theorem isOctal_of_isBinary (h : isBinary c = true) : isOctal c = true := by
  rcases Bool.or_eq_true_iff.mp h with h | h <;> rw [beq_iff_eq.mp h] <;> rfl

/-- The values of digits, by a look at the characters that are digits of any base. -/
theorem digitOf_spec (h : isHex c = true) :
    Node.digitOf c = digitValue c ∧ Node.digitOf c < 16 ∧ (c.isDigit = true → Node.digitOf c < 10) ∧
      (isOctal c = true → Node.digitOf c < 8) ∧ (isBinary c = true → Node.digitOf c < 2) := by
  have htable : ∀ n < 128, isHex (.ofNat n) = true →
      Node.digitOf (.ofNat n) = digitValue (.ofNat n) ∧ Node.digitOf (.ofNat n) < 16 ∧
        ((Char.ofNat n).isDigit = true → Node.digitOf (.ofNat n) < 10) ∧
        (isOctal (.ofNat n) = true → Node.digitOf (.ofNat n) < 8) ∧
        (isBinary (.ofNat n) = true → Node.digitOf (.ofNat n) < 2) := by
    decide +kernel
  simpa only [Char.ofNat_toNat, h, forall_true_left] using htable c.toNat (toNat_lt_of_isHex h)

/-- Hexadecimal digits whose values lie below a base are digits of the base. -/
theorem isDigitClass_of_lt (hhex : ∀ {c}, p c = true → isHex c = true)
    (hlt : ∀ {c}, p c = true → Node.digitOf c < base) : IsDigitClass p base where
  value_eq h := (digitOf_spec (hhex h)).1
  value_lt := hlt
  hexadecimal := hhex

theorem isDigitClass_isHex : IsDigitClass isHex 16 :=
  isDigitClass_of_lt id fun h => (digitOf_spec h).2.1

theorem isDigitClass_isDigit : IsDigitClass Char.isDigit 10 :=
  isDigitClass_of_lt isHex_of_isDigit fun h => (digitOf_spec (isHex_of_isDigit h)).2.2.1 h

theorem isDigitClass_isOctal : IsDigitClass isOctal 8 :=
  have hhex {c : Char} (h : isOctal c = true) : isHex c = true :=
    isHex_of_isDigit (isDigit_of_isOctal h)
  isDigitClass_of_lt hhex fun h => (digitOf_spec (hhex h)).2.2.2.1 h

theorem isDigitClass_isBinary : IsDigitClass isBinary 2 :=
  have hhex {c : Char} (h : isBinary c = true) : isHex c = true :=
    isHex_of_isDigit (isDigit_of_isOctal (isOctal_of_isBinary h))
  isDigitClass_of_lt hhex fun h => (digitOf_spec (hhex h)).2.2.2.2 h

/-- A digit is none of the other characters that can stand in numbers. -/
theorem IsDigitClass.ne (hp : IsDigitClass p base) (hc : p c = true) {d : Char}
    (hd : isHex d = false) : c ≠ d :=
  fun h => Bool.false_ne_true (hd.symm.trans (h ▸ hp.hexadecimal hc))

theorem IsDigits.exists_cons (h : IsDigits p cs) : ∃ d ds, cs = d :: ds ∧ p d = true := by
  cases h with
  | last h => exact ⟨_, _, rfl, h⟩
  | digit h => exact ⟨_, _, rfl, h⟩
  | separated h => exact ⟨_, _, rfl, h⟩

theorem IsDigits.imp {q : Char → Bool} (hpq : ∀ c, p c = true → q c = true) (h : IsDigits p cs) :
    IsDigits q cs := by
  induction h with
  | last h => exact .last (hpq _ h)
  | digit h _ ih => exact .digit (hpq _ h) ih
  | separated h _ ih => exact .separated (hpq _ h) ih

theorem significant_cons_of_ne (hc : c ≠ '_') (cs : List Char) :
    significant (c :: cs) = c :: significant cs :=
  List.filter_cons_of_pos (bne_iff_ne.mpr hc)

/-- Without their underscores, digits are digits of the class, of which there is one at least. -/
theorem IsDigits.significant_spec (hp : IsDigitClass p base) (h : IsDigits p cs) :
    significant cs ≠ [] ∧ ∀ d ∈ significant cs, p d = true := by
  induction h with
  | last h =>
    rw [significant_cons_of_ne (hp.ne h rfl)]
    exact ⟨List.cons_ne_nil _ _, List.forall_mem_singleton.mpr h⟩
  | digit h _ ih =>
    rw [significant_cons_of_ne (hp.ne h rfl)]
    exact ⟨List.cons_ne_nil _ _, List.forall_mem_cons.mpr ⟨h, ih.2⟩⟩
  | separated h _ ih =>
    rw [significant_cons_of_ne (hp.ne h rfl)]
    exact ⟨List.cons_ne_nil _ _, List.forall_mem_cons.mpr ⟨h, ih.2⟩⟩

theorem IsPaddedDigits.significant_spec (hp : IsDigitClass p base) (h : IsPaddedDigits p cs) :
    significant cs ≠ [] ∧ ∀ d ∈ significant cs, p d = true := by
  cases h with
  | plain h => exact h.significant_spec hp
  | padded h => simpa [significant] using h.significant_spec hp

/-! ### The number of a literal -/

namespace Node

/-- Digits of a base are read with the number that they denote. -/
theorem digitsIn?_eq (hp : IsDigitClass p base) {ds : List Char} (hne : ds ≠ [])
    (hds : ∀ d ∈ ds, p d = true) :
    digitsIn? base ds = some (Nat.ofDigits base (ds.reverse.map digitValue)) := by
  rw [digitsIn?, List.isEmpty_eq_false_iff.mpr hne, if_neg Bool.false_ne_true]
  clear hne
  induction ds using List.reverseRecOn with
  | nil => rfl
  | append_singleton ds d ih =>
    have hd : p d = true := hds d (by simp)
    rw [List.foldlM_append, ih fun d hd => hds d (by simp [hd])]
    have hlt : digitValue d < base := hp.value_eq hd ▸ hp.value_lt hd
    simp [hp.value_eq hd, hlt, Nat.ofDigits_cons, Nat.add_comm]

theorem digitsIn?_significant (hp : IsDigitClass p base) (h : IsPaddedDigits p cs) :
    digitsIn? base (significant cs) = some (numberOf base cs) :=
  digitsIn?_eq hp (h.significant_spec hp).1 (h.significant_spec hp).2

theorem intOfDigits?_of_ne_zero (hc : c ≠ '0') (hshort : (c :: cs).length ≤ Decimal.maxDigits) :
    intOfDigits? (c :: cs) = digitsIn? 10 (c :: cs) := by
  unfold intOfDigits?
  split <;> simp_all

theorem intOfDigits?_of_isOctal (hc : isOctal c = true) (cs : List Char) :
    intOfDigits? ('0' :: c :: cs) = digitsIn? 8 ('0' :: c :: cs) := by
  unfold intOfDigits?
  split <;> simp_all [isOctal]

/-- A literal is read with the number that it denotes, unless it is a decimal one with too many
digits. -/
theorem intOfDigits?_eq_some (h : IsInteger text v)
    (hshort : text.head? ≠ some '0' → (significant text).length ≤ Decimal.maxDigits) :
    intOfDigits? (significant text) = some v := by
  cases h with
  | zero => rfl
  | @decimal c cs hc hdigits =>
    have hlength := hshort (by simpa using hc)
    have hvalue := digitsIn?_significant isDigitClass_isDigit (.plain hdigits)
    obtain ⟨d, ds, hd, hfirst⟩ := hdigits.exists_cons
    cases hd
    rw [significant_cons_of_ne (isDigitClass_isDigit.ne hfirst rfl)] at hlength hvalue ⊢
    rw [intOfDigits?_of_ne_zero hc hlength, hvalue]
  | hexadecimal hx hdigits =>
    have hvalue := digitsIn?_significant isDigitClass_isHex hdigits
    rcases hx with rfl | rfl <;> exact hvalue
  | binary hx hdigits =>
    have hvalue := digitsIn?_significant isDigitClass_isBinary hdigits
    rcases hx with rfl | rfl <;> exact hvalue
  | octal hx hdigits =>
    have hvalue := digitsIn?_significant isDigitClass_isOctal hdigits
    rcases hx with rfl | rfl <;> exact hvalue
  | @leadingZero cs hdigits =>
    -- the zero in front is a digit itself, and changes nothing
    obtain ⟨hne, hall⟩ := hdigits.significant_spec isDigitClass_isOctal
    have hvalue := digitsIn?_eq isDigitClass_isOctal (List.cons_ne_nil '0' (significant cs))
      (List.forall_mem_cons.mpr ⟨rfl, hall⟩)
    obtain ⟨d, ds, hds⟩ := List.exists_cons_of_ne_nil hne
    rw [significant_cons_of_ne (by decide), numberOf]
    rw [hds] at hall hvalue ⊢
    rw [intOfDigits?_of_isOctal (hall d List.mem_cons_self), hvalue, List.reverse_cons,
      List.map_append, Nat.ofDigits_append]
    simp [digitValue]

end Node

/-! ### Literals among tokens -/

theorem isDigits_take_moreDigits (hc : p c = true) (cs : List Char) :
    IsDigits p (c :: cs.take (moreDigits p cs)) := by
  fun_induction moreDigits p cs generalizing c with
  | case1 d cs hd ih => exact .separated hc (ih hd)
  | case2 d cs hd => exact .last hc
  | case3 d cs hother hd ih => exact .digit hc (ih hd)
  | case4 d cs hother hd => exact .last hc
  | case5 => exact .last hc

theorem isDigits_of_digits (h : digits p cs = some n) : IsDigits p (cs.take n) := by
  cases cs with
  | nil => exact nomatch h
  | cons c cs =>
    rw [digits] at h
    split at h
    · rename_i hc
      cases h
      exact isDigits_take_moreDigits hc cs
    · exact nomatch h

theorem isPaddedDigits_of_paddedDigits (h : paddedDigits p cs = some n) :
    IsPaddedDigits p (cs.take n) := by
  unfold paddedDigits at h
  split at h
  · obtain ⟨m, hm, rfl⟩ := Option.map_eq_some_iff.mp h
    exact .padded (isDigits_of_digits hm)
  · exact .plain (isDigits_of_digits h)

/-- A beginning with more behind it counts, and without it the zero alone. -/
theorem longest_one_eq_some {b : Option Nat} (h : longest (some 1) (b.map (· + n)) = some v)
    (hn : 0 < n) : v = 1 ∨ ∃ m, b = some m ∧ v = m + n := by
  cases b with
  | none => exact .inl (Option.some.inj h).symm
  | some m =>
    have hmax : max 1 (m + n) = v := Option.some.inj h
    exact .inr ⟨m, rfl, by omega⟩

/-- What the scanner takes for an integer is a literal. -/
theorem isInteger_of_intLength (h : intLength cs = some n) : ∃ v, IsInteger (cs.take n) v := by
  unfold intLength at h
  split at h
  · rename_i rest
    dsimp only at h
    split at h
    · rename_i x r
      have hbased {p : Char → Bool} {base : Nat}
          (hliteral : ∀ ds, IsPaddedDigits p ds → IsInteger ('0' :: x :: ds) (numberOf base ds))
          (h : longest (some 1) ((paddedDigits p r).map (· + 2)) = some n) :
          ∃ v, IsInteger (('0' :: x :: r).take n) v := by
        rcases longest_one_eq_some h (by decide) with rfl | ⟨m, hm, rfl⟩
        · exact ⟨0, .zero⟩
        · exact ⟨_, hliteral _ (isPaddedDigits_of_paddedDigits hm)⟩
      split at h
      · rename_i hx
        exact hbased (fun _ => .hexadecimal (by simpa using hx)) h
      · split at h
        · rename_i hx
          exact hbased (fun _ => .binary (by simpa using hx)) h
        · split at h
          · rename_i hx
            exact hbased (fun _ => .octal (by simpa using hx)) h
          · rcases longest_one_eq_some h (by decide) with rfl | ⟨m, hm, rfl⟩
            · exact ⟨0, .zero⟩
            · exact ⟨_, .leadingZero (isPaddedDigits_of_paddedDigits hm)⟩
    · cases h
      exact ⟨0, .zero⟩
  · rename_i c rest hzero
    split at h
    · rename_i hc
      cases h
      exact ⟨_, .decimal hzero (isDigits_take_moreDigits hc rest)⟩
    · exact nomatch h
  · exact nomatch h

/-- The integer tokens are literals. -/
theorem isInteger_of_tokenLength? (h : tokenLength? cs = some (.int, n)) :
    ∃ v, IsInteger (cs.take n) v := by
  refine isInteger_of_intLength ?_
  unfold tokenLength? at h
  split at h
  · exact nomatch h
  · cases h
  · simp at h
  · simp at h
  · simp at h
  · split at h
    · cases h
    · split at h
      · rename_i hnumber
        cases h
        unfold numberLength? at hnumber
        split at hnumber
        · cases hnumber
        · cases hnumber
        · rename_i hint
          cases hnumber
          exact hint
        · exact nomatch hnumber
      · simp at h

theorem moreDigits_cons_of_ne (hc : c ≠ '_') (cs : List Char) :
    moreDigits p (c :: cs) = if p c then moreDigits p cs + 1 else 0 := by
  rw [moreDigits.eq_def]
  split
  · rename_i heq
    cases heq
    exact absurd rfl hc
  · rename_i heq
    cases heq
    rfl
  · rename_i heq
    cases heq

theorem IsDigits.moreDigits_tail (hp : IsDigitClass p base) (h : IsDigits p cs) :
    moreDigits p cs.tail = cs.tail.length := by
  induction h with
  | last => rfl
  | digit _ hcs ih =>
    obtain ⟨d, ds, rfl, hd⟩ := hcs.exists_cons
    rw [List.tail_cons, moreDigits_cons_of_ne (hp.ne hd rfl), if_pos hd]
    exact congrArg (· + 1) ih
  | separated _ hcs ih =>
    obtain ⟨d, ds, rfl, hd⟩ := hcs.exists_cons
    simpa [moreDigits, hd] using ih

theorem IsDigits.digits_eq (hp : IsDigitClass p base) (h : IsDigits p cs) :
    digits p cs = some cs.length := by
  have hmore := h.moreDigits_tail hp
  obtain ⟨d, ds, rfl, hd⟩ := h.exists_cons
  rw [digits, if_pos hd]
  exact congrArg (fun n => some (n + 1)) hmore

theorem IsPaddedDigits.paddedDigits_eq (hp : IsDigitClass p base) (h : IsPaddedDigits p cs) :
    paddedDigits p cs = some cs.length := by
  cases h with
  | plain h =>
    obtain ⟨d, ds, rfl, hd⟩ := h.exists_cons
    have hne : d ≠ '_' := hp.ne hd rfl
    rw [paddedDigits]
    · exact h.digits_eq hp
    · exact fun rest heq => hne (List.cons.inj heq).1
  | padded h => rw [paddedDigits, h.digits_eq hp]; rfl

/-- The letters that tell the base of a literal. -/
def baseLetters : List Char := ['x', 'X', 'b', 'B', 'o', 'O']

/-- What stands in a literal. -/
theorem IsDigits.mem (h : IsDigits p cs) (hc : c ∈ cs) : p c = true ∨ c = '_' := by
  induction h with
  | last h => exact .inl (List.mem_singleton.mp hc ▸ h)
  | digit h _ ih => exact (List.mem_cons.mp hc).elim (fun heq => .inl (heq ▸ h)) ih
  | separated h _ ih =>
    simp only [List.mem_cons] at hc
    rcases hc with rfl | rfl | hc
    · exact .inl h
    · exact .inr rfl
    · exact ih hc

theorem IsPaddedDigits.mem (h : IsPaddedDigits p cs) (hc : c ∈ cs) : p c = true ∨ c = '_' := by
  cases h with
  | plain h => exact h.mem hc
  | padded h => exact (List.mem_cons.mp hc).elim .inr h.mem

/-- Behind a zero, no letter but a digit or an underscore stands in front of octal digits. -/
theorem IsPaddedDigits.exists_cons (h : IsPaddedDigits isOctal cs) :
    ∃ x r, cs = x :: r ∧ x ∉ baseLetters := by
  have hletters : ∀ x ∈ baseLetters, isOctal x = false ∧ x ≠ '_' := by
    simp [baseLetters, isOctal]
  obtain ⟨x, r, rfl⟩ : ∃ x r, cs = x :: r := by
    cases h with
    | plain h =>
      obtain ⟨d, ds, hcons, -⟩ := h.exists_cons
      exact ⟨d, ds, hcons⟩
    | padded h => exact ⟨_, _, rfl⟩
  refine ⟨x, r, rfl, fun hx => ?_⟩
  obtain ⟨hoctal, hunderscore⟩ := hletters x hx
  rcases h.mem List.mem_cons_self with h | h
  · exact Bool.false_ne_true (hoctal.symm.trans h)
  · exact hunderscore h

theorem intLength_of_isInteger (h : IsInteger text v) : intLength text = some text.length := by
  have hmax (m : Nat) : max 1 (m + 1) = m + 1 := by omega
  cases h with
  | zero => rfl
  | @decimal c cs hc h =>
    have hmore := h.moreDigits_tail isDigitClass_isDigit
    obtain ⟨d, ds, hd, hfirst⟩ := h.exists_cons
    cases hd
    rw [intLength, if_pos hfirst]
    · exact congrArg (fun n => some (n + 1)) hmore
    · exact fun heq => hc heq
  | hexadecimal hx h =>
    have hdigits := h.paddedDigits_eq isDigitClass_isHex
    rcases hx with rfl | rfl <;> simp [intLength, hdigits, longest]
  | binary hx h =>
    have hdigits := h.paddedDigits_eq isDigitClass_isBinary
    rcases hx with rfl | rfl <;> simp [intLength, hdigits, longest]
  | octal hx h =>
    have hdigits := h.paddedDigits_eq isDigitClass_isOctal
    rcases hx with rfl | rfl <;> simp [intLength, hdigits, longest]
  | @leadingZero cs h =>
    have hdigits := h.paddedDigits_eq isDigitClass_isOctal
    obtain ⟨x, r, rfl, hx⟩ := h.exists_cons
    simp only [baseLetters, List.mem_cons, List.not_mem_nil, or_false, not_or] at hx
    simp [intLength, hdigits, longest, hx]

/-- A literal is made of digits, underscores and the letters that tell its base. -/
theorem IsInteger.mem (h : IsInteger text v) (hc : c ∈ text) :
    isHex c = true ∨ c = '_' ∨ c ∈ baseLetters := by
  have hdigit {p : Char → Bool} {base : Nat} (hp : IsDigitClass p base) {ds : List Char}
      (h : IsPaddedDigits p ds) (hc : c ∈ ds) : isHex c = true ∨ c = '_' ∨ c ∈ baseLetters :=
    (h.mem hc).imp hp.hexadecimal .inl
  have hbased {p : Char → Bool} {base : Nat} (hp : IsDigitClass p base) {x : Char} {ds : List Char}
      (hx : x ∈ baseLetters) (h : IsPaddedDigits p ds) (hc : c ∈ '0' :: x :: ds) :
      isHex c = true ∨ c = '_' ∨ c ∈ baseLetters := by
    simp only [List.mem_cons] at hc
    rcases hc with rfl | rfl | hc
    · exact .inl rfl
    · exact .inr (.inr hx)
    · exact hdigit hp h hc
  cases h with
  | zero => exact .inl (List.mem_singleton.mp hc ▸ rfl)
  | decimal _ h => exact hdigit isDigitClass_isDigit (.plain h) hc
  | hexadecimal hx h =>
    exact hbased isDigitClass_isHex (by rcases hx with rfl | rfl <;> decide) h hc
  | binary hx h =>
    exact hbased isDigitClass_isBinary (by rcases hx with rfl | rfl <;> decide) h hc
  | octal hx h =>
    exact hbased isDigitClass_isOctal (by rcases hx with rfl | rfl <;> decide) h hc
  | leadingZero h =>
    rcases List.mem_cons.mp hc with rfl | hc
    · exact .inl rfl
    · exact hdigit isDigitClass_isOctal h hc

/-! ### Other numbers -/

theorem imaginaryLength_eq_none (h : 'i' ∉ cs) : imaginaryLength cs = none := by
  have hno (n : Nat) : cs[n]? ≠ some 'i' := fun hn => h (List.mem_of_getElem? hn)
  simpa [imaginaryLength] using fun n _ => hno n

/-- Decimal digits alone are no floating-point literal. -/
theorem floatLength_of_isDigits (h : IsDigits Char.isDigit cs) : floatLength cs = none := by
  have hdecimal : decimalFloatLength cs = none := by
    rw [decimalFloatLength, h.digits_eq isDigitClass_isDigit]
    simp [exponentLength]
  have hhex : hexFloatLength cs = none := by
    unfold hexFloatLength
    split
    · rename_i x r
      have hx : x ≠ 'x' ∧ x ≠ 'X' := by
        rcases h.mem (c := x) (by simp) with hx | rfl
        · exact ⟨isDigitClass_isDigit.ne hx rfl, isDigitClass_isDigit.ne hx rfl⟩
        · decide
      simp [hx]
    · rfl
  rw [floatLength, hdecimal, hhex]
  rfl

/-- Digits behind a letter that tells their base are no floating-point literal. -/
theorem floatLength_of_based {x : Char} (hx : x ∈ baseLetters)
    (h : x = 'x' ∨ x = 'X' → IsPaddedDigits isHex cs) : floatLength ('0' :: x :: cs) = none := by
  have hdecimal : decimalFloatLength ('0' :: x :: cs) = none := by
    have hwhole : digits Char.isDigit ('0' :: x :: cs) = some 1 := by
      simp only [baseLetters, List.mem_cons, List.not_mem_nil, or_false] at hx
      rcases hx with rfl | rfl | rfl | rfl | rfl | rfl <;> rfl
    rw [decimalFloatLength, hwhole]
    simp only [baseLetters, List.mem_cons, List.not_mem_nil, or_false] at hx
    rcases hx with rfl | rfl | rfl | rfl | rfl | rfl <;> rfl
  have hhex : hexFloatLength ('0' :: x :: cs) = none := by
    rw [hexFloatLength]
    split
    · rename_i hletter
      have hdigits := (h (by simpa using hletter)).paddedDigits_eq isDigitClass_isHex
      simp [hdigits, exponentLength]
    · rfl
  rw [floatLength, hdecimal, hhex]
  rfl

theorem IsInteger.floatLength_eq_none (h : IsInteger text v) : floatLength text = none := by
  cases h with
  | zero => rfl
  | decimal _ h => exact floatLength_of_isDigits h
  | hexadecimal hx h =>
    exact floatLength_of_based (by rcases hx with rfl | rfl <;> decide) fun _ => h
  | binary hx h => rcases hx with rfl | rfl <;> exact floatLength_of_based (by decide) (by simp)
  | octal hx h => rcases hx with rfl | rfl <;> exact floatLength_of_based (by decide) (by simp)
  | leadingZero h =>
    cases h with
    | plain h => exact floatLength_of_isDigits (.digit rfl (h.imp fun _ => isDigit_of_isOctal))
    | padded h => exact floatLength_of_isDigits (.separated rfl (h.imp fun _ => isDigit_of_isOctal))

theorem isLetter_eq_false (hc : c.isDigit = true) : isLetter c = false := by
  have htable : ∀ n < 128, (Char.ofNat n).isDigit = true → isLetter (.ofNat n) = false := by
    decide +kernel
  have hlt := toNat_lt_of_isHex (isHex_of_isDigit hc)
  simpa only [Char.ofNat_toNat, hc, forall_true_left] using htable c.toNat hlt

/-- The literals are integer tokens. -/
theorem tokenLength?_of_isInteger (h : IsInteger text v) :
    tokenLength? text = some (.int, text.length) := by
  have hi : 'i' ∉ text := fun hmem => by simpa [baseLetters, isHex] using h.mem hmem
  have hnumber : numberLength? text = some (.int, text.length) := by
    rw [numberLength?, imaginaryLength_eq_none hi, h.floatLength_eq_none,
      intLength_of_isInteger h]
  obtain ⟨c, cs, rfl, hc⟩ : ∃ c cs, text = c :: cs ∧ c.isDigit = true := by
    cases h with
    | decimal _ h =>
      obtain ⟨d, ds, hd, hfirst⟩ := h.exists_cons
      exact ⟨d, ds, hd, hfirst⟩
    | _ => exact ⟨_, _, rfl, rfl⟩
  have hletter := isLetter_eq_false hc
  unfold tokenLength?
  split <;> simp_all [Char.isDigit]

theorem isInteger_of_scan? {fuel : Nat} {ts : List Token} {t : Token}
    (h : scan? fuel cs = some ts) (ht : t ∈ ts) (hkind : t.kind = .int) :
    ∃ v, IsInteger t.text v := by
  induction fuel generalizing cs ts with
  | zero =>
    rw [scan?] at h
    split at h
    · cases h
      exact absurd ht List.not_mem_nil
    · exact nomatch h
  | succ fuel ih =>
    rw [scan?] at h
    dsimp only at h
    split at h
    · cases h
      exact absurd ht List.not_mem_nil
    · obtain ⟨⟨kind, n⟩, hlength, h⟩ := Option.bind_eq_some_iff.mp h
      obtain ⟨more, hmore, h⟩ := Option.bind_eq_some_iff.mp h
      cases h
      rcases List.mem_cons.mp ht with rfl | ht
      · obtain rfl : kind = .int := hkind
        exact isInteger_of_tokenLength? hlength
      · exact ih hmore ht

/-! ### Expressions -/

namespace Node

/-- The literals are the integer tokens, also those of a source. A literal, perhaps in parentheses,
is read with the number that it denotes, unless it is a decimal one with too many digits. -/
theorem intValue?_exact :
    (∀ text, (∃ v, IsInteger text v) ↔ tokenLength? text = some (.int, text.length)) ∧
    (∀ content ts, tokens? content = some ts → ∀ t ∈ ts, t.kind = .int → ∃ v, IsInteger t.text v) ∧
    ∀ n leading text v, Inside n (leaf .intLiteral leading text) → IsInteger text v →
      (text.head? ≠ some '0' → (significant text).length ≤ Decimal.maxDigits) →
      n.intValue? = some v := by
  refine ⟨fun text => ⟨fun ⟨v, h⟩ => tokenLength?_of_isInteger h, fun h => ?_⟩,
    fun content ts h t ht hkind => isInteger_of_scan? h ht hkind,
    fun n leading text v hn h hshort => ?_⟩
  · simpa using isInteger_of_tokenLength? h
  · rw [intValue?, hn.unwrap?_eq]
    exact intOfDigits?_eq_some h hshort

/-- A literal of which a zero in front tells the base, with an underscore behind the zero. -/
def octalFifteen : List Char := "0_17".toList

/-- The literal in parentheses. -/
def parenthesizedFifteen : Node :=
  branch .parenthesizedExpression [(.part, leaf .mark [] ['(']),
    (.part, leaf .intLiteral [] octalFifteen), (.part, leaf .mark [] [')'])]

theorem intValue?_exact_of_octal :
    IsInteger octalFifteen 15 ∧ tokenLength? octalFifteen = some (.int, 4) ∧
      tokens? octalFifteen = some [⟨.int, [], false, octalFifteen⟩] ∧
      parenthesizedFifteen.intValue? = some 15 := by
  have hliteral : IsInteger octalFifteen 15 :=
    .leadingZero (.padded (.digit rfl (.last rfl)))
  have hinside : Inside parenthesizedFifteen (leaf .intLiteral [] octalFifteen) :=
    .wrapped rfl rfl (.token _ _ _)
  have htokens : tokens? octalFifteen = some [⟨.int, [], false, octalFifteen⟩] := by
    decide +kernel
  obtain ⟨hiff, -, hvalue⟩ := intValue?_exact
  exact ⟨hliteral, (hiff _).mp ⟨15, hliteral⟩, htokens, hvalue _ _ _ _ hinside hliteral nofun⟩

end Node

end ProviderCatalog.Go
