import ProviderCatalog.Proofs.Go.Integers

/-!
# The numbers that the scanner takes

The scanner takes the longest number that stands at the front of a source. What it can take for
digits, integers and floating-point literals are languages, and each matcher takes the longest word
of its language. So a character that stands in no word ends what is taken, and what stands behind it
does not matter.

## Main definitions

* `Takes`: a matcher takes the longest word of a language.
* `IsExponent`, `IsDecimalFloat`, `IsHexFloat`: the literals that are no integers.

## Main results

* `Takes.eq_some_of_append`, `Takes.eq_none_of_append`: what is taken in front of a character that
  stands in no word.
* `takes_digits`, `takes_intLength`, `takes_floatLength`: the matchers and their languages.
-/

namespace ProviderCatalog.Go

variable {p : Char → Bool} {M N : Matcher} {L K : List Char → Prop} {m n : Nat} {x : Char}
  {a cs w rest : List Char}

/-! ### Longest words -/

/-- A matcher takes the longest word of a language that stands at the front of a source. -/
structure Takes (M : Matcher) (L : List Char → Prop) : Prop where
  word {cs : List Char} {n : Nat} (h : M cs = some n) : n ≤ cs.length ∧ L (cs.take n)
  longest {w : List Char} (h : L w) (rest : List Char) : ∃ n, M (w ++ rest) = some n ∧ w.length ≤ n
  nonempty {w : List Char} (h : L w) : w ≠ []

namespace Takes

variable (hM : Takes M L)

include hM

/-- A character that stands in no word ends what is taken. -/
theorem word_of_notMem (hx : ∀ w, L w → x ∉ w) (h : M (a ++ x :: rest) = some n) :
    n ≤ a.length ∧ L (a.take n) := by
  have hword := (hM.word h).2
  have hn : n ≤ a.length := by
    by_contra hn
    refine hx _ hword ?_
    rw [List.take_append, List.mem_append]
    right
    obtain ⟨k, hk⟩ : ∃ k, n - a.length = k + 1 := ⟨n - a.length - 1, by omega⟩
    rw [hk, List.take_succ_cons]
    exact List.mem_cons_self
  exact ⟨hn, by rwa [List.take_append_of_le_length hn] at hword⟩

/-- What is taken of a source is no longer if a character follows that stands in no word. -/
theorem eq_some_of_append (hx : ∀ w, L w → x ∉ w) (h : M (a ++ rest) = some n) (hn : n ≤ a.length)
    (rest' : List Char) : M (a ++ x :: rest') = some n := by
  have hword := (hM.word h).2
  rw [List.take_append_of_le_length hn] at hword
  obtain ⟨m, hm, hnm⟩ := hM.longest hword (a.drop n ++ x :: rest')
  rw [← List.append_assoc, List.take_append_drop] at hm
  obtain ⟨hma, hmword⟩ := hM.word_of_notMem hx hm
  obtain ⟨n', hn', hmn⟩ := hM.longest hmword (a.drop m ++ rest)
  rw [← List.append_assoc, List.take_append_drop, h] at hn'
  cases hn'
  rw [List.length_take] at hnm hmn
  rw [hm, show m = n by omega]

theorem eq_none_of_append (hx : ∀ w, L w → x ∉ w) (h : M (a ++ rest) = none)
    (rest' : List Char) : M (a ++ x :: rest') = none := by
  cases hm : M (a ++ x :: rest') with
  | none => rfl
  | some m =>
    obtain ⟨-, hword⟩ := hM.word_of_notMem hx hm
    obtain ⟨n, hn, -⟩ := hM.longest hword (a.drop m ++ rest)
    rw [← List.append_assoc, List.take_append_drop, h] at hn
    exact nomatch hn

/-- A word is taken as a whole if a character follows that stands in no word. -/
theorem eq_length (hx : ∀ w, L w → x ∉ w) (h : L w) (rest : List Char) :
    M (w ++ x :: rest) = some w.length := by
  obtain ⟨n, hn, hle⟩ := hM.longest h (x :: rest)
  have := (hM.word_of_notMem hx hn).1
  rw [hn, show n = w.length by omega]

theorem union (hN : Takes N K) :
    Takes (fun cs => Go.longest (M cs) (N cs)) fun w => L w ∨ K w where
  word {cs n} h := by
    cases hm : M cs with
    | none =>
      rw [hm] at h
      exact (hN.word h).imp_right .inr
    | some m =>
      cases hk : N cs with
      | none =>
        rw [hm, hk] at h
        exact (hM.word (hm.trans h)).imp_right .inl
      | some k =>
        rw [hm, hk] at h
        have hmax : max m k = n := Option.some.inj h
        rcases Nat.le_total m k with hle | hle
        · rw [Nat.max_eq_right hle] at hmax
          exact (hN.word (hmax ▸ hk)).imp_right .inr
        · rw [Nat.max_eq_left hle] at hmax
          exact (hM.word (hmax ▸ hm)).imp_right .inl
  longest {w} h rest := by
    rcases h with h | h
    · obtain ⟨m, hm, hle⟩ := hM.longest h rest
      rw [hm]
      cases N (w ++ rest) with
      | none => exact ⟨m, rfl, hle⟩
      | some k => exact ⟨max m k, rfl, by omega⟩
    · obtain ⟨k, hk, hle⟩ := hN.longest h rest
      rw [hk]
      cases M (w ++ rest) with
      | none => exact ⟨k, rfl, hle⟩
      | some m => exact ⟨max m k, rfl, by omega⟩
  nonempty h := h.elim hM.nonempty hN.nonempty

/-! An optional part of a literal has length zero where it is missing. -/

theorem getD_word (cs : List Char) :
    (M cs).getD 0 ≤ cs.length ∧
      (cs.take ((M cs).getD 0) = [] ∧ (M cs).getD 0 = 0 ∨ L (cs.take ((M cs).getD 0))) := by
  cases h : M cs with
  | none => exact ⟨Nat.zero_le _, .inl ⟨rfl, rfl⟩⟩
  | some n => exact (hM.word h).imp_right .inr

theorem le_getD (h : w = [] ∨ L w) (rest : List Char) : w.length ≤ (M (w ++ rest)).getD 0 := by
  rcases h with rfl | h
  · exact Nat.zero_le _
  · obtain ⟨n, hn, hle⟩ := hM.longest h rest
    rwa [hn]

theorem getD_eq_length (hx : ∀ w, L w → x ∉ w) (h : w = [] ∨ L w) (rest : List Char) :
    (M (w ++ x :: rest)).getD 0 = w.length := by
  rcases h with rfl | h
  · cases hn : M ([] ++ x :: rest) with
    | none => rfl
    | some n => exact Nat.le_zero.mp (hM.word_of_notMem hx hn).1
  · rw [hM.eq_length hx h]
    rfl

end Takes

/-! ### Digits -/

theorem moreDigits_le (p : Char → Bool) (cs : List Char) : moreDigits p cs ≤ cs.length := by
  fun_induction moreDigits p cs <;> simp <;> omega

theorem IsDigits.le_moreDigits {base : Nat} (hp : IsDigitClass p base) (h : IsDigits p w)
    (rest : List Char) : w.tail.length ≤ moreDigits p (w.tail ++ rest) := by
  induction h with
  | last => exact Nat.zero_le _
  | digit _ hcs ih =>
    obtain ⟨d, ds, rfl, hd⟩ := hcs.exists_cons
    rw [List.tail_cons, List.cons_append, moreDigits_cons_of_ne (hp.ne hd rfl), if_pos hd]
    exact Nat.succ_le_succ ih
  | separated _ hcs ih =>
    obtain ⟨d, ds, rfl, hd⟩ := hcs.exists_cons
    simpa [moreDigits, hd] using ih

theorem takes_digits {base : Nat} (hp : IsDigitClass p base) : Takes (digits p) (IsDigits p) where
  word {cs n} h := by
    refine ⟨?_, isDigits_of_digits h⟩
    cases cs with
    | nil => cases h
    | cons c cs =>
      rw [digits] at h
      split at h
      · cases h
        exact Nat.succ_le_succ (moreDigits_le p cs)
      · cases h
  longest {w} h rest := by
    have hmore := h.le_moreDigits hp rest
    obtain ⟨d, ds, rfl, hd⟩ := h.exists_cons
    exact ⟨_, if_pos hd, Nat.succ_le_succ hmore⟩
  nonempty h := by
    obtain ⟨d, ds, rfl, -⟩ := h.exists_cons
    exact List.cons_ne_nil _ _

theorem takes_paddedDigits {base : Nat} (hp : IsDigitClass p base) :
    Takes (paddedDigits p) (IsPaddedDigits p) where
  word {cs n} h := by
    refine ⟨?_, isPaddedDigits_of_paddedDigits h⟩
    unfold paddedDigits at h
    split at h
    · obtain ⟨m, hm, rfl⟩ := Option.map_eq_some_iff.mp h
      exact Nat.succ_le_succ ((takes_digits hp).word hm).1
    · exact ((takes_digits hp).word h).1
  longest {w} h rest := by
    cases h with
    | plain h =>
      obtain ⟨n, hn, hle⟩ := (takes_digits hp).longest h rest
      obtain ⟨d, ds, rfl, hd⟩ := h.exists_cons
      refine ⟨n, ?_, hle⟩
      rw [List.cons_append, paddedDigits]
      · exact hn
      · exact fun r heq => hp.ne hd rfl (List.cons.inj heq).1
    | padded h =>
      obtain ⟨n, hn, hle⟩ := (takes_digits hp).longest h rest
      exact ⟨n + 1, by rw [List.cons_append, paddedDigits, hn]; rfl, Nat.succ_le_succ hle⟩
  nonempty h := by
    cases h with
    | plain h => exact (takes_digits hp).nonempty h
    | padded => exact List.cons_ne_nil _ _

theorem takes_intLength : Takes intLength fun w => ∃ v, IsInteger w v where
  word {cs n} h := by
    refine ⟨?_, isInteger_of_intLength h⟩
    have hbased {p : Char → Bool} {base k : Nat} (hp : IsDigitClass p base) {r : List Char}
        (h : longest (some 1) ((paddedDigits p r).map (· + k)) = some n) (hk : 0 < k) :
        n ≤ r.length + k := by
      rcases longest_one_eq_some h hk with rfl | ⟨m, hm, rfl⟩
      · omega
      · exact Nat.add_le_add_right ((takes_paddedDigits hp).word hm).1 k
    unfold intLength at h
    split at h
    · dsimp only at h
      split at h
      · split at h
        · exact (hbased isDigitClass_isHex h (by decide) :)
        · split at h
          · exact (hbased isDigitClass_isBinary h (by decide) :)
          · split at h
            · exact (hbased isDigitClass_isOctal h (by decide) :)
            · exact (hbased isDigitClass_isOctal h (by decide) :)
      · cases h
        exact Nat.le_refl 1
    · rename_i c rest _
      split at h
      · cases h
        exact Nat.succ_le_succ (moreDigits_le _ rest)
      · exact nomatch h
    · exact nomatch h
  longest {w} h rest := by
    have hone (b : Option Nat) : ∃ n, longest (some 1) b = some n ∧ 1 ≤ n := by
      cases b with
      | none => exact ⟨1, rfl, Nat.le_refl 1⟩
      | some m => exact ⟨max 1 m, rfl, Nat.le_max_left 1 m⟩
    have hbased {p : Char → Bool} {base : Nat} (hp : IsDigitClass p base) {ds : List Char}
        (h : IsPaddedDigits p ds) (k : Nat) :
        ∃ n, longest (some 1) ((paddedDigits p (ds ++ rest)).map (· + k)) = some n ∧
          ds.length + k ≤ n := by
      obtain ⟨n, hn, hle⟩ := (takes_paddedDigits hp).longest h rest
      exact ⟨max 1 (n + k), by rw [hn]; rfl, by omega⟩
    obtain ⟨v, h⟩ := h
    cases h with
    | zero => exact hone _
    | @decimal c cs hc h =>
      have hmore := h.le_moreDigits isDigitClass_isDigit rest
      obtain ⟨d, ds, hd, hfirst⟩ := h.exists_cons
      cases hd
      refine ⟨_, ?_, Nat.succ_le_succ hmore⟩
      rw [List.cons_append, intLength, if_pos hfirst]
      · rfl
      · exact fun heq => hc heq
    | hexadecimal hx h =>
      obtain ⟨n, hn, hle⟩ := hbased isDigitClass_isHex h 2
      refine ⟨n, ?_, hle⟩
      rcases hx with rfl | rfl <;> exact hn
    | binary hx h =>
      obtain ⟨n, hn, hle⟩ := hbased isDigitClass_isBinary h 2
      refine ⟨n, ?_, hle⟩
      rcases hx with rfl | rfl <;> exact hn
    | octal hx h =>
      obtain ⟨n, hn, hle⟩ := hbased isDigitClass_isOctal h 2
      refine ⟨n, ?_, hle⟩
      rcases hx with rfl | rfl <;> exact hn
    | @leadingZero cs h =>
      obtain ⟨n, hn, hle⟩ := hbased isDigitClass_isOctal h 1
      obtain ⟨x, r, rfl, hx⟩ := h.exists_cons
      simp only [baseLetters, List.mem_cons, List.not_mem_nil, or_false, not_or] at hx
      refine ⟨n, ?_, hle⟩
      rw [← hn]
      simp [intLength, hx]
  nonempty h := by
    obtain ⟨v, h⟩ := h
    cases h <;> exact List.cons_ne_nil _ _

/-! ### Floating-point literals -/

/-- An exponent after one of two letters. -/
inductive IsExponent (lower upper : Char) : List Char → Prop where
  | signed {e s : Char} {ds : List Char} (he : e = lower ∨ e = upper) (hs : s = '+' ∨ s = '-')
      (h : IsDigits Char.isDigit ds) : IsExponent lower upper (e :: s :: ds)
  | plain {e : Char} {ds : List Char} (he : e = lower ∨ e = upper)
      (h : IsDigits Char.isDigit ds) : IsExponent lower upper (e :: ds)

/-- The decimal floating-point literals. -/
inductive IsDecimalFloat : List Char → Prop where
  | pointed {whole fraction exponent : List Char}
      (hwhole : whole = [] ∨ IsDigits Char.isDigit whole)
      (hfraction : fraction = [] ∨ IsDigits Char.isDigit fraction)
      (hne : ¬(whole = [] ∧ fraction = []))
      (hexponent : exponent = [] ∨ IsExponent 'e' 'E' exponent) :
      IsDecimalFloat (whole ++ '.' :: (fraction ++ exponent))
  | scaled {whole exponent : List Char} (hwhole : IsDigits Char.isDigit whole)
      (hexponent : IsExponent 'e' 'E' exponent) : IsDecimalFloat (whole ++ exponent)

/-- The hexadecimal floating-point literals. -/
inductive IsHexFloat : List Char → Prop where
  | pointed {x : Char} {whole fraction exponent : List Char} (hx : x = 'x' ∨ x = 'X')
      (hwhole : whole = [] ∨ IsPaddedDigits isHex whole)
      (hfraction : fraction = [] ∨ IsDigits isHex fraction) (hne : ¬(whole = [] ∧ fraction = []))
      (hexponent : IsExponent 'p' 'P' exponent) :
      IsHexFloat ('0' :: x :: (whole ++ '.' :: (fraction ++ exponent)))
  | scaled {x : Char} {whole exponent : List Char} (hx : x = 'x' ∨ x = 'X')
      (hwhole : IsPaddedDigits isHex whole) (hexponent : IsExponent 'p' 'P' exponent) :
      IsHexFloat ('0' :: x :: (whole ++ exponent))

theorem IsDigits.notMem (h : IsDigits p w) (hx : p x = false) (hne : x ≠ '_') : x ∉ w := fun hmem =>
  (h.mem hmem).elim (fun hp => Bool.false_ne_true (hx.symm.trans hp)) hne

theorem IsPaddedDigits.notMem (h : IsPaddedDigits p w) (hx : p x = false) (hne : x ≠ '_') :
    x ∉ w := fun hmem =>
  (h.mem hmem).elim (fun hp => Bool.false_ne_true (hx.symm.trans hp)) hne

theorem takes_exponentLength (lower upper : Char) :
    Takes (exponentLength lower upper) (IsExponent lower upper) where
  word {cs n} h := by
    have hdigits := takes_digits isDigitClass_isDigit
    unfold exponentLength at h
    split at h
    · split at h
      · rename_i he
        have he := he
        rw [Bool.or_eq_true, beq_iff_eq, beq_iff_eq] at he
        split at h <;> obtain ⟨m, hm, rfl⟩ := Option.map_eq_some_iff.mp h
        · exact ⟨Nat.add_le_add_right (hdigits.word hm).1 2,
            .signed he (.inl rfl) (hdigits.word hm).2⟩
        · exact ⟨Nat.add_le_add_right (hdigits.word hm).1 2,
            .signed he (.inr rfl) (hdigits.word hm).2⟩
        · exact ⟨Nat.succ_le_succ (hdigits.word hm).1, .plain he (hdigits.word hm).2⟩
      · exact nomatch h
    · exact nomatch h
  longest {w} h rest := by
    have hdigits := takes_digits isDigitClass_isDigit
    cases h with
    | signed he hs h =>
      obtain ⟨n, hn, hle⟩ := hdigits.longest h rest
      refine ⟨n + 2, ?_, Nat.add_le_add_right hle 2⟩
      rcases hs with rfl | rfl <;> simp [exponentLength, he, hn]
    | plain he h =>
      obtain ⟨n, hn, hle⟩ := hdigits.longest h rest
      obtain ⟨d, ds, rfl, hd⟩ := h.exists_cons
      refine ⟨n + 1, ?_, Nat.succ_le_succ hle⟩
      rw [List.cons_append, exponentLength, if_pos (by simpa using he), hn]
      · rfl
      · exact fun r heq => isDigitClass_isDigit.ne hd rfl (List.cons.inj heq).1
      · exact fun r heq => isDigitClass_isDigit.ne hd rfl (List.cons.inj heq).1
  nonempty h := by
    cases h <;> exact List.cons_ne_nil _ _

theorem IsExponent.exists_cons {lower upper : Char} (h : IsExponent lower upper w) :
    ∃ e ds, w = e :: ds ∧ (e = lower ∨ e = upper) := by
  cases h with
  | signed he => exact ⟨_, _, rfl, he⟩
  | plain he => exact ⟨_, _, rfl, he⟩

/-- The parts of a literal with a point are the parts of its length. -/
theorem take_pointed (whole r : List Char) (f e : Nat) :
    (whole ++ '.' :: r).take (whole.length + 1 + f + e) =
      whole ++ '.' :: (r.take f ++ (r.drop f).take e) := by
  rw [show whole.length + 1 + f + e = whole.length + (f + e + 1) by omega,
    List.take_length_add_append, List.take_succ_cons, List.take_add]

theorem notMem_of_letter {e : Char} (he : e = 'e' ∨ e = 'E') (w : List Char)
    (h : IsDigits Char.isDigit w) : e ∉ w :=
  h.notMem (by rcases he with rfl | rfl <;> rfl) (by rcases he with rfl | rfl <;> decide)

/-- Behind the point, no less is taken than a fraction and an exponent. -/
theorem length_le_of_fraction {fraction exponent : List Char}
    (hfraction : fraction = [] ∨ IsDigits Char.isDigit fraction)
    (hexponent : exponent = [] ∨ IsExponent 'e' 'E' exponent) (rest : List Char) :
    fraction.length + exponent.length ≤
      (digits Char.isDigit (fraction ++ exponent ++ rest)).getD 0 +
        (exponentLength 'e' 'E' ((fraction ++ exponent ++ rest).drop
          ((digits Char.isDigit (fraction ++ exponent ++ rest)).getD 0))).getD 0 := by
  have hdigits := takes_digits isDigitClass_isDigit
  rcases hexponent with rfl | hexponent
  · have hle := hdigits.le_getD hfraction rest
    rw [List.append_nil, List.length_nil]
    omega
  · obtain ⟨n, hn, hle⟩ := (takes_exponentLength 'e' 'E').longest hexponent rest
    obtain ⟨e, ds, rfl, he⟩ := hexponent.exists_cons
    have heq := hdigits.getD_eq_length (notMem_of_letter he) hfraction (ds ++ rest)
    rw [List.append_assoc, List.cons_append, heq, List.drop_left, ← List.cons_append, hn]
    exact Nat.add_le_add_left hle _

theorem isDecimalFloat_of_length (h : decimalFloatLength cs = some n) :
    n ≤ cs.length ∧ IsDecimalFloat (cs.take n) := by
  have hdigits := takes_digits isDigitClass_isDigit
  have hexponents := takes_exponentLength 'e' 'E'
  obtain ⟨hle, hword⟩ := hdigits.getD_word cs
  rw [decimalFloatLength] at h
  generalize (digits Char.isDigit cs).getD 0 = whole at h hle hword
  have hlength : (cs.take whole).length = whole := by simpa using hle
  have hcs := cs.take_append_drop whole
  dsimp only at h
  split at h
  · rename_i r hr
    split at h
    · cases h
    · rename_i hne
      cases h
      obtain ⟨hfle, hfword⟩ := hdigits.getD_word r
      generalize (digits Char.isDigit r).getD 0 = fraction at hne hfle hfword ⊢
      obtain ⟨hele, heword⟩ := hexponents.getD_word (r.drop fraction)
      generalize (exponentLength 'e' 'E' (r.drop fraction)).getD 0 = exponent at hele heword ⊢
      have htake := take_pointed (cs.take whole) r fraction exponent
      rw [hlength, ← hr, hcs] at htake
      refine ⟨?_, ?_⟩
      · rw [List.length_drop] at hele
        have hrest := congrArg List.length hr
        rw [List.length_drop, List.length_cons] at hrest
        omega
      · rw [htake]
        refine .pointed (hword.imp_left (·.1)) (hfword.imp_left (·.1)) ?_ (heword.imp_left (·.1))
        rintro ⟨hwhole, hfraction⟩
        have hzero : (r.take fraction).length = fraction := by simpa using hfle
        rw [hwhole] at hlength
        rw [hfraction] at hzero
        exact hne (by simp [← hlength, ← hzero])
  · split at h
    · cases h
    · rename_i hne
      obtain ⟨e, he, rfl⟩ := Option.map_eq_some_iff.mp h
      obtain ⟨hele, heword⟩ := hexponents.word he
      rw [List.length_drop] at hele
      refine ⟨by omega, ?_⟩
      rw [List.take_add]
      exact .scaled (hword.resolve_left fun hnone => hne hnone.2) heword

theorem IsDecimalFloat.longest (h : IsDecimalFloat w) (rest : List Char) :
    ∃ n, decimalFloatLength (w ++ rest) = some n ∧ w.length ≤ n := by
  have hdigits := takes_digits isDigitClass_isDigit
  cases h with
  | @pointed whole fraction exponent hwhole hfraction hne hexponent =>
    have hwhole_eq := hdigits.getD_eq_length (fun w h => h.notMem (x := '.') rfl (by decide)) hwhole
      (fraction ++ exponent ++ rest)
    have hfraction_le := hdigits.le_getD hfraction (exponent ++ rest)
    have hboth := length_le_of_fraction hfraction hexponent rest
    rw [List.append_assoc whole, List.cons_append, decimalFloatLength, hwhole_eq, List.drop_left]
    rw [List.append_assoc] at hboth ⊢
    refine ⟨_, if_neg fun hzero => hne ?_, ?_⟩
    · obtain ⟨hwhole, hfraction⟩ := Bool.and_eq_true_iff.mp hzero
      rw [of_decide_eq_true hfraction] at hfraction_le
      exact ⟨List.length_eq_zero_iff.mp (of_decide_eq_true hwhole),
        List.length_eq_zero_iff.mp (Nat.le_zero.mp hfraction_le)⟩
    · rw [List.length_append, List.length_cons, List.length_append]
      omega
  | @scaled whole exponent hwhole hexponent =>
    obtain ⟨n, hn, hle⟩ := (takes_exponentLength 'e' 'E').longest hexponent rest
    obtain ⟨e, ds, rfl, he⟩ := hexponent.exists_cons
    have hwhole_eq := hdigits.getD_eq_length (notMem_of_letter he) (.inr hwhole) (ds ++ rest)
    have hpositive := List.length_pos_iff.mpr (hdigits.nonempty hwhole)
    refine ⟨whole.length + n, ?_, ?_⟩
    · rw [List.append_assoc, List.cons_append, decimalFloatLength, hwhole_eq, List.drop_left]
      rcases he with rfl | rfl <;>
        exact (if_neg hpositive.ne').trans (congrArg (Option.map (whole.length + ·)) hn)
    · rw [List.length_append]
      omega

theorem takes_decimalFloatLength : Takes decimalFloatLength IsDecimalFloat where
  word := isDecimalFloat_of_length
  longest h := h.longest
  nonempty h := by
    cases h with
    | pointed => exact List.append_ne_nil_of_right_ne_nil _ (List.cons_ne_nil _ _)
    | scaled hwhole =>
      exact List.append_ne_nil_of_left_ne_nil
        ((takes_digits isDigitClass_isDigit).nonempty hwhole) _

theorem isHexFloat_of_length (h : hexFloatLength cs = some n) :
    n ≤ cs.length ∧ IsHexFloat (cs.take n) := by
  have hexponents := takes_exponentLength 'p' 'P'
  unfold hexFloatLength at h
  split at h
  · rename_i x cs
    split at h
    · rename_i hx
      rw [Bool.or_eq_true, beq_iff_eq, beq_iff_eq] at hx
      obtain ⟨hle, hword⟩ := (takes_paddedDigits isDigitClass_isHex).getD_word cs
      generalize (paddedDigits isHex cs).getD 0 = whole at h hle hword
      have hlength : (cs.take whole).length = whole := by simpa using hle
      have hcs := cs.take_append_drop whole
      dsimp only at h
      split at h
      · rename_i r hr
        obtain ⟨hfle, hfword⟩ := (takes_digits isDigitClass_isHex).getD_word r
        generalize (digits isHex r).getD 0 = fraction at h hfle hfword
        have hzero : (r.take fraction).length = fraction := by simpa using hfle
        have hdrop : cs.drop (whole + 1 + fraction) = r.drop fraction := by
          rw [Nat.add_assoc, ← List.drop_drop, hr, Nat.add_comm, List.drop_succ_cons]
        split at h
        · exact nomatch h
        · rename_i hne
          rw [hdrop] at h
          obtain ⟨e, he, rfl⟩ := Option.map_eq_some_iff.mp h
          obtain ⟨hele, heword⟩ := hexponents.word he
          have htake := take_pointed (cs.take whole) r fraction e
          rw [hlength, ← hr, hcs] at htake
          rw [show e + (whole + 1 + fraction) + 2 = whole + 1 + fraction + e + 2 by omega]
          refine ⟨?_, ?_⟩
          · rw [List.length_drop] at hele
            have hrest := congrArg List.length hr
            rw [List.length_drop, List.length_cons] at hrest
            rw [List.length_cons, List.length_cons]
            omega
          · rw [List.take_succ_cons, List.take_succ_cons, htake]
            refine .pointed hx (hword.imp_left (·.1)) (hfword.imp_left (·.1)) ?_ heword
            rintro ⟨hwhole, hfraction⟩
            rw [hwhole] at hlength
            rw [hfraction] at hzero
            exact hne (by simp [← hlength, ← hzero])
      · split at h
        · exact nomatch h
        · rename_i hne
          obtain ⟨e, he, rfl⟩ := Option.map_eq_some_iff.mp h
          obtain ⟨hele, heword⟩ := hexponents.word he
          rw [List.length_drop] at hele
          rw [show e + whole + 2 = whole + e + 2 by omega]
          refine ⟨?_, ?_⟩
          · rw [List.length_cons, List.length_cons]
            omega
          · rw [List.take_succ_cons, List.take_succ_cons, List.take_add]
            exact .scaled hx (hword.resolve_left fun hnone => hne (by simp [hnone.2])) heword
    · exact nomatch h
  · exact nomatch h

theorem IsHexFloat.longest (h : IsHexFloat w) (rest : List Char) :
    ∃ n, hexFloatLength (w ++ rest) = some n ∧ w.length ≤ n := by
  have hwholes := takes_paddedDigits isDigitClass_isHex
  have hletter {e : Char} (he : e = 'p' ∨ e = 'P') : isHex e = false ∧ e ≠ '_' := by
    rcases he with rfl | rfl <;> exact ⟨rfl, by decide⟩
  cases h with
  | @pointed x whole fraction exponent hx hwhole hfraction hne hexponent =>
    obtain ⟨n, hn, hle⟩ := (takes_exponentLength 'p' 'P').longest hexponent rest
    obtain ⟨e, ds, rfl, he⟩ := hexponent.exists_cons
    have hwhole_eq := hwholes.getD_eq_length (fun w h => h.notMem (x := '.') rfl (by decide)) hwhole
      (fraction ++ e :: ds ++ rest)
    have hfraction_eq := (takes_digits isDigitClass_isHex).getD_eq_length
      (fun w h => h.notMem (hletter he).1 (hletter he).2) hfraction (ds ++ rest)
    have hdrop : (whole ++ '.' :: (fraction ++ e :: (ds ++ rest))).drop
        (whole.length + 1 + fraction.length) = e :: (ds ++ rest) := by
      rw [Nat.add_assoc, List.drop_length_add_append, Nat.add_comm, List.drop_succ_cons,
        List.drop_left]
    have hmantissa : ¬(whole.length + 1 + fraction.length = 0 ||
        (whole.length = 0 && whole.length + 1 + fraction.length = 1)) = true := by
      simp only [Bool.or_eq_true, Bool.and_eq_true, decide_eq_true_eq, not_or, not_and]
      refine ⟨by omega, fun hwhole hone => hne ⟨List.length_eq_zero_iff.mp hwhole, ?_⟩⟩
      exact List.length_eq_zero_iff.mp (by omega)
    refine ⟨n + (whole.length + 1 + fraction.length) + 2, ?_, ?_⟩
    · simp only [List.cons_append, List.append_assoc] at hwhole_eq hn ⊢
      rw [hexFloatLength, if_pos (by simpa using hx), hwhole_eq]
      dsimp only
      rw [List.drop_left]
      split
      · rename_i r heq
        cases heq
        rw [hfraction_eq, if_neg hmantissa, hdrop, hn]
        rfl
      · rename_i hpoint
        exact absurd rfl (hpoint _)
    · simp only [List.length_cons, List.length_append] at hle ⊢
      omega
  | @scaled x whole exponent hx hwhole hexponent =>
    obtain ⟨n, hn, hle⟩ := (takes_exponentLength 'p' 'P').longest hexponent rest
    obtain ⟨e, ds, rfl, he⟩ := hexponent.exists_cons
    have hwhole_eq := hwholes.getD_eq_length
      (fun w h => h.notMem (hletter he).1 (hletter he).2) (.inr hwhole) (ds ++ rest)
    have hpositive := List.length_pos_iff.mpr (hwholes.nonempty hwhole)
    have hmantissa : ¬(whole.length = 0 || (whole.length = 0 && whole.length = 1)) = true := by
      simp only [Bool.or_eq_true, Bool.and_eq_true, decide_eq_true_eq]
      omega
    refine ⟨n + whole.length + 2, ?_, ?_⟩
    · simp only [List.cons_append, List.append_assoc] at hn ⊢
      rw [hexFloatLength, if_pos (by simpa using hx), hwhole_eq]
      dsimp only
      rw [List.drop_left]
      split
      · rename_i r heq
        rcases he with rfl | rfl <;> exact absurd (List.cons.inj heq).1 (by decide)
      · rw [if_neg hmantissa, List.drop_left, hn]
        rfl
    · simp only [List.length_cons, List.length_append] at hle ⊢
      omega

theorem takes_hexFloatLength : Takes hexFloatLength IsHexFloat where
  word := isHexFloat_of_length
  longest h := h.longest
  nonempty h := by
    cases h <;> exact List.cons_ne_nil _ _

theorem takes_floatLength : Takes floatLength fun w => IsDecimalFloat w ∨ IsHexFloat w :=
  takes_decimalFloatLength.union takes_hexFloatLength

end ProviderCatalog.Go
