import ProviderCatalog.Proofs.Go.Numbers
import ProviderCatalog.Proofs.Go.Strings

/-!
# What a token depends on

The scanner takes the longest number, word or mark that stands at the front of a source, and a
string up to its closing delimiter. So what follows a token in a source matters only as far as it
could make the token longer: if a blank stands somewhere behind a token, then the token is the same
whatever stands behind the blank.

## Main definitions

* `isNumeric`: the characters of numbers.
* `IsReal`, `IsImaginary`: the numbers without and with the letter of imaginary ones.
* `Closes`: a matcher stops at the end of what it takes.

## Main results

* `numberLength?_cut`: a number in front of a character that stands in no number.
* `closes_stringLength`, `closes_rawStringLength`, `closes_runeLength`: strings and runes.
* `tokenLength?_cut`: a token with a blank somewhere behind it.
-/

namespace ProviderCatalog.Go

variable {p : Char → Bool} {L : List Char → Prop} {M : Matcher} {m n : Nat} {x : Char}
  {a cs w rest : List Char}

/-! ### What stands in numbers -/

/-- The characters of numbers that are no digits. -/
def numberMarks : List Char := '_' :: '.' :: '+' :: '-' :: 'p' :: 'P' :: baseLetters

/-- Whether a character can stand in a number that is not imaginary. -/
def isNumeric (c : Char) : Bool := isHex c || numberMarks.contains c

/-- All characters can stand in numbers. -/
abbrev IsNumeric (w : List Char) : Prop := ∀ c ∈ w, isNumeric c = true

theorem isNumeric_of_isHex {c : Char} (h : isHex c = true) : isNumeric c = true := by
  rw [isNumeric, h]
  rfl

theorem isNumeric_of_mem {c : Char} (h : c ∈ numberMarks) : isNumeric c = true := by
  rw [isNumeric, List.contains_iff_mem.mpr h, Bool.or_true]

theorem IsDigits.isNumeric {base : Nat} (hp : IsDigitClass p base) (h : IsDigits p w) :
    IsNumeric w := fun _ hc =>
  (h.mem hc).elim (fun hd => isNumeric_of_isHex (hp.hexadecimal hd)) fun heq => heq ▸ rfl

theorem IsPaddedDigits.isNumeric {base : Nat} (hp : IsDigitClass p base) (h : IsPaddedDigits p w) :
    IsNumeric w := fun _ hc =>
  (h.mem hc).elim (fun hd => isNumeric_of_isHex (hp.hexadecimal hd)) fun heq => heq ▸ rfl

theorem IsInteger.isNumeric {v : Nat} (h : IsInteger w v) : IsNumeric w := fun c hc => by
  rcases h.mem hc with hd | rfl | hletter
  · exact isNumeric_of_isHex hd
  · rfl
  · exact isNumeric_of_mem (List.mem_append_right ['_', '.', '+', '-', 'p', 'P'] hletter)

theorem IsExponent.isNumeric {lower upper : Char} (h : IsExponent lower upper w)
    (hlower : Go.isNumeric lower = true) (hupper : Go.isNumeric upper = true) : IsNumeric w := by
  cases h with
  | signed he hs h =>
    refine List.forall_mem_cons.mpr ⟨by rcases he with rfl | rfl <;> assumption,
      List.forall_mem_cons.mpr ⟨by rcases hs with rfl | rfl <;> rfl, ?_⟩⟩
    exact h.isNumeric isDigitClass_isDigit
  | plain he h =>
    exact List.forall_mem_cons.mpr ⟨by rcases he with rfl | rfl <;> assumption,
      h.isNumeric isDigitClass_isDigit⟩

theorem isNumeric_of_optional (h : w = [] ∨ L w) (hL : ∀ w, L w → IsNumeric w) : IsNumeric w := by
  rcases h with rfl | h
  · exact List.forall_mem_nil _
  · exact hL w h

theorem IsDecimalFloat.isNumeric (h : IsDecimalFloat w) : IsNumeric w := by
  cases h with
  | pointed hwhole hfraction _ hexponent =>
    refine List.forall_mem_append.mpr ⟨?_, List.forall_mem_cons.mpr ⟨rfl,
      List.forall_mem_append.mpr ⟨?_, ?_⟩⟩⟩
    · exact isNumeric_of_optional hwhole fun _ h => h.isNumeric isDigitClass_isDigit
    · exact isNumeric_of_optional hfraction fun _ h => h.isNumeric isDigitClass_isDigit
    · exact isNumeric_of_optional hexponent fun _ h => h.isNumeric rfl rfl
  | scaled hwhole hexponent =>
    exact List.forall_mem_append.mpr ⟨hwhole.isNumeric isDigitClass_isDigit,
      hexponent.isNumeric rfl rfl⟩

theorem IsHexFloat.isNumeric (h : IsHexFloat w) : IsNumeric w := by
  have hletter {x : Char} (hx : x = 'x' ∨ x = 'X') : Go.isNumeric x = true := by
    rcases hx with rfl | rfl <;> rfl
  cases h with
  | pointed hx hwhole hfraction _ hexponent =>
    refine List.forall_mem_cons.mpr ⟨rfl, List.forall_mem_cons.mpr ⟨hletter hx,
      List.forall_mem_append.mpr ⟨?_, List.forall_mem_cons.mpr ⟨rfl,
        List.forall_mem_append.mpr ⟨?_, hexponent.isNumeric rfl rfl⟩⟩⟩⟩⟩
    · exact isNumeric_of_optional hwhole fun _ h => h.isNumeric isDigitClass_isHex
    · exact isNumeric_of_optional hfraction fun _ h => h.isNumeric isDigitClass_isHex
  | scaled hx hwhole hexponent =>
    exact List.forall_mem_cons.mpr ⟨rfl, List.forall_mem_cons.mpr ⟨hletter hx,
      List.forall_mem_append.mpr ⟨hwhole.isNumeric isDigitClass_isHex,
        hexponent.isNumeric rfl rfl⟩⟩⟩

/-! ### Imaginary literals -/

/-- A number that is not imaginary. -/
def IsReal (w : List Char) : Prop :=
  IsDigits Char.isDigit w ∨ (∃ v, IsInteger w v) ∨ IsDecimalFloat w ∨ IsHexFloat w

theorem IsReal.isNumeric (h : IsReal w) : IsNumeric w := by
  rcases h with h | ⟨v, h⟩ | h | h
  · exact h.isNumeric isDigitClass_isDigit
  · exact h.isNumeric
  · exact h.isNumeric
  · exact h.isNumeric

theorem IsReal.notMem (hx : Go.isNumeric x = false) (w : List Char) (h : IsReal w) : x ∉ w :=
  fun hmem => Bool.false_ne_true (hx.symm.trans (h.isNumeric x hmem))

/-- The imaginary literals. -/
inductive IsImaginary : List Char → Prop where
  | mk {w : List Char} (h : IsReal w) : IsImaginary (w ++ ['i'])

/-- The matchers whose lengths an imaginary literal can have, up to its last letter. -/
theorem mem_candidates {cs : List Char} {n : Nat} :
    n ∈ [digits Char.isDigit cs, intLength cs, floatLength cs].filterMap id ↔
      digits Char.isDigit cs = some n ∨ intLength cs = some n ∨ floatLength cs = some n := by
  simp [List.mem_filterMap, eq_comm]

theorem takes_imaginaryLength : Takes imaginaryLength IsImaginary where
  word {cs n} h := by
    obtain ⟨m, hm, rfl⟩ := Option.map_eq_some_iff.mp h
    obtain ⟨hmem, hi⟩ := List.mem_filter.mp (List.max?_mem hm)
    obtain ⟨rest, hrest⟩ := List.head?_eq_some_iff.mp (beq_iff_eq.mp hi)
    have hword : m ≤ cs.length ∧ IsReal (cs.take m) := by
      rcases mem_candidates.mp hmem with h | h | h
      · exact ((takes_digits isDigitClass_isDigit).word h).imp_right .inl
      · exact (takes_intLength.word h).imp_right fun h => .inr (.inl h)
      · exact (takes_floatLength.word h).imp_right fun h => .inr (.inr h)
    have hlength := congrArg List.length hrest
    rw [List.length_drop, List.length_cons] at hlength
    refine ⟨by omega, ?_⟩
    rw [List.take_add, hrest]
    exact .mk hword.2
  longest {w} h rest := by
    obtain ⟨h⟩ := h
    rename_i v
    have hmem : v.length ∈ [digits Char.isDigit (v ++ 'i' :: rest), intLength (v ++ 'i' :: rest),
        floatLength (v ++ 'i' :: rest)].filterMap id := by
      rw [mem_candidates]
      refine h.imp (fun h => ?_) (.imp (fun h => ?_) fun h => ?_)
      · exact (takes_digits isDigitClass_isDigit).eq_length
          (fun w h => IsReal.notMem rfl w (.inl h)) h rest
      · exact takes_intLength.eq_length (fun w h => IsReal.notMem rfl w (.inr (.inl h))) h rest
      · exact takes_floatLength.eq_length (fun w h => IsReal.notMem rfl w (.inr (.inr h))) h rest
    have hnext : ((v ++ 'i' :: rest).drop v.length).head? == some 'i' := by
      rw [List.drop_left]
      rfl
    have hcandidate := List.mem_filter_of_mem
      (p := fun n => ((v ++ 'i' :: rest).drop n).head? == some 'i') hmem hnext
    obtain ⟨m, hm⟩ := Option.isSome_iff_exists.mp (List.isSome_max?_of_mem hcandidate)
    refine ⟨m + 1, ?_, ?_⟩
    · rw [List.append_assoc]
      exact congrArg (Option.map (· + 1)) hm
    · rw [List.length_append]
      exact Nat.succ_le_succ ((List.max?_eq_some_iff.mp hm).2 _ hcandidate)
  nonempty h := by
    cases h
    exact List.append_ne_nil_of_right_ne_nil _ (List.cons_ne_nil _ _)

/-! ### Numbers -/

theorem numberLength?_word {kind : TokenKind} (h : numberLength? cs = some (kind, n)) :
    0 < n ∧ n ≤ cs.length := by
  have hpositive {M : Matcher} {L : List Char → Prop} (hM : Takes M L) {n : Nat}
      (h : M cs = some n) : 0 < n ∧ n ≤ cs.length := by
    obtain ⟨hle, hword⟩ := hM.word h
    have hlength := List.length_pos_iff.mpr (hM.nonempty hword)
    rw [List.length_take] at hlength
    omega
  unfold numberLength? at h
  split at h
  · cases h
    exact hpositive takes_imaginaryLength (by assumption)
  · cases h
    exact hpositive takes_floatLength (by assumption)
  · cases h
    exact hpositive takes_intLength (by assumption)
  · exact nomatch h

section Cut

variable (hx : isNumeric x = false) (hi : x ≠ 'i')

include hx hi

theorem IsImaginary.notMem (w : List Char) (h : IsImaginary w) : x ∉ w := by
  obtain ⟨h⟩ := h
  rw [List.mem_append, List.mem_singleton]
  exact fun hmem => hmem.elim (IsReal.notMem hx _ h) hi

/-- A number is the same if a character follows somewhere that stands in no number. -/
theorem numberLength?_cut {kind : TokenKind} (h : numberLength? (a ++ rest) = some (kind, n))
    (hn : n ≤ a.length) (rest' : List Char) : numberLength? (a ++ x :: rest') = some (kind, n) := by
  have hints (w : List Char) (h : ∃ v, IsInteger w v) := IsReal.notMem hx w (.inr (.inl h))
  have hfloats (w : List Char) (h : IsDecimalFloat w ∨ IsHexFloat w) :=
    IsReal.notMem hx w (.inr (.inr h))
  unfold numberLength? at h
  split at h
  · rename_i himaginary
    cases h
    rw [numberLength?, takes_imaginaryLength.eq_some_of_append (IsImaginary.notMem hx hi)
      himaginary hn rest']
  · rename_i himaginary hfloat
    cases h
    rw [numberLength?, takes_imaginaryLength.eq_none_of_append (IsImaginary.notMem hx hi)
      himaginary rest', takes_floatLength.eq_some_of_append hfloats hfloat hn rest']
  · rename_i himaginary hfloat hint
    cases h
    rw [numberLength?, takes_imaginaryLength.eq_none_of_append (IsImaginary.notMem hx hi)
      himaginary rest', takes_floatLength.eq_none_of_append hfloats hfloat rest',
      takes_intLength.eq_some_of_append hints hint hn rest']
  · cases h

theorem numberLength?_cut_none (h : numberLength? (a ++ rest) = none) (rest' : List Char) :
    numberLength? (a ++ x :: rest') = none := by
  have hints (w : List Char) (h : ∃ v, IsInteger w v) := IsReal.notMem hx w (.inr (.inl h))
  have hfloats (w : List Char) (h : IsDecimalFloat w ∨ IsHexFloat w) :=
    IsReal.notMem hx w (.inr (.inr h))
  unfold numberLength? at h
  split at h
  · exact nomatch h
  · exact nomatch h
  · exact nomatch h
  · rename_i himaginary hfloat hint
    rw [numberLength?, takes_imaginaryLength.eq_none_of_append (IsImaginary.notMem hx hi)
      himaginary rest', takes_floatLength.eq_none_of_append hfloats hfloat rest',
      takes_intLength.eq_none_of_append hints hint rest']

end Cut

/-! ### Strings and runes -/

/-- A matcher stops at the end of what it takes, whatever follows. -/
def Closes (M : Matcher) : Prop :=
  ∀ cs n, M cs = some n → n ≤ cs.length ∧ ∀ rest, M (cs.take n ++ rest) = some n

theorem Closes.cut (hM : Closes M) (h : M (a ++ rest) = some n) (hn : n ≤ a.length)
    (rest' : List Char) : M (a ++ rest') = some n := by
  have hclosed := (hM _ _ h).2 (a.drop n ++ rest')
  rwa [List.take_append_of_le_length hn, ← List.append_assoc, List.take_append_drop] at hclosed

theorem beginsWith_take (h : beginsWith p m cs = true) (hm : m ≤ n) (rest : List Char) :
    beginsWith p m (cs.take n ++ rest) = true := by
  rw [beginsWith, Bool.and_eq_true, beq_iff_eq, List.length_take] at h
  have hlength : m ≤ (cs.take n).length := by
    rw [List.length_take]
    omega
  rw [beginsWith, List.take_append_of_le_length hlength, List.take_take, Nat.min_eq_left hm,
    Bool.and_eq_true, beq_iff_eq, List.length_take]
  exact h

/-- The digits of an escape by number stand in front of the closing quote. -/
theorem le_of_stringLength (h : stringLength cs = some n) (hdigits : beginsWith isHex m cs = true) :
    m ≤ n := by
  rw [beginsWith, Bool.and_eq_true, beq_iff_eq, List.all_eq_true] at hdigits
  have happend := stringLength_append
    (fun c hc => notMem_specialMarks_of_isHex (hdigits.2 c hc)) (cs.drop m)
  rw [List.take_append_drop, h, hdigits.1] at happend
  obtain ⟨k, -, hk⟩ := Option.map_eq_some_iff.mp happend.symm
  omega

theorem closes_stringLength : Closes stringLength := by
  intro cs n h
  fun_induction stringLength cs generalizing n with
  | case2 =>
    cases h
    exact ⟨Nat.succ_le_succ (Nat.zero_le _), fun _ => rfl⟩
  | case8 e cs hnul hescapes ih =>
    obtain ⟨m, hm, rfl⟩ := Option.map_eq_some_iff.mp h
    obtain ⟨hle, hclosed⟩ := ih _ hm
    refine ⟨Nat.add_le_add_right hle 2, fun rest => ?_⟩
    have hkept {k : Nat} (hk : beginsWith isHex k cs = true) :
        beginsWith isHex k (cs.take m ++ rest) = true :=
      beginsWith_take hk (le_of_stringLength hm hk) rest
    rw [List.take_succ_cons, List.take_succ_cons, List.cons_append, List.cons_append, stringLength,
      if_neg, hclosed rest]
    · rfl
    · simp only [Bool.or_eq_true, Bool.and_eq_true, beq_iff_eq, Bool.not_eq_true', not_or, not_and,
        Bool.not_eq_false] at hescapes ⊢
      exact ⟨⟨fun he => hkept (hescapes.1.1 he), fun he => hkept (hescapes.1.2 he)⟩,
        fun he => hkept (hescapes.2 he)⟩
    · exact hnul
  | case9 c cs hquote hbreak hnul _ hlast hescape ih =>
    obtain ⟨m, hm, rfl⟩ := Option.map_eq_some_iff.mp h
    obtain ⟨hle, hclosed⟩ := ih _ hm
    refine ⟨Nat.succ_le_succ hle, fun rest => ?_⟩
    have hbackslash : c ≠ '\\' := by
      rintro rfl
      cases cs with
      | nil => exact hlast rfl rfl
      | cons e cs => exact hescape e cs rfl rfl
    rw [List.take_succ_cons, List.cons_append, stringLength_cons, hclosed rest]
    · rfl
    · simp only [specialMarks, List.mem_cons, List.not_mem_nil, or_false, not_or]
      exact ⟨hquote, hbreak, hnul, hbackslash⟩
  | _ => cases h

theorem closes_rawStringLength : Closes rawStringLength := by
  intro cs n h
  fun_induction rawStringLength cs generalizing n with
  | case3 c cs _ hmark =>
    cases h
    exact ⟨Nat.succ_le_succ (Nat.zero_le _), fun _ => by
      rw [List.take_succ_cons, List.cons_append, rawStringLength, if_pos hmark]; assumption⟩
  | case4 c cs hnul hmark ih =>
    obtain ⟨m, hm, rfl⟩ := Option.map_eq_some_iff.mp h
    obtain ⟨hle, hclosed⟩ := ih _ hm
    refine ⟨Nat.succ_le_succ hle, fun rest => ?_⟩
    rw [List.take_succ_cons, List.cons_append, rawStringLength, if_neg hmark, hclosed rest]
    · rfl
    · exact hnul
  | _ => exact nomatch h

theorem closes_runeLength : Closes runeLength := by
  intro cs n h
  unfold runeLength at h
  split at h
  · rename_i e cs
    obtain ⟨m, hm, h⟩ := Option.bind_eq_some_iff.mp h
    split at h
    · rename_i hquote
      cases h
      obtain ⟨after, hafter⟩ := List.head?_eq_some_iff.mp (beq_iff_eq.mp hquote)
      have hlength := congrArg List.length hafter
      rw [List.length_drop, List.length_cons] at hlength
      refine ⟨by rw [List.length_cons, List.length_cons]; omega, fun rest => ?_⟩
      rw [List.take_succ_cons, List.take_succ_cons, List.cons_append, List.cons_append, runeLength]
      refine Option.bind_eq_some_iff.mpr ⟨m, ?_, if_pos ?_⟩
      · have hkept {p : Char → Bool} {k : Nat}
            (h : (if beginsWith p k cs then some k else none) = some m) :
            (if beginsWith p k (cs.take (m + 1) ++ rest) then some k else none) = some m := by
          split at h
          · rename_i hdigits
            cases h
            exact if_pos (beginsWith_take hdigits (Nat.le_succ _) rest)
          · exact nomatch h
        split at hm
        · exact (if_pos (by assumption)).trans (hkept hm)
        · refine (if_neg (by assumption)).trans ?_
          split at hm
          · exact (if_pos (by assumption)).trans (hkept hm)
          · refine (if_neg (by assumption)).trans ?_
            split at hm
            · exact (if_pos (by assumption)).trans (hkept hm)
            · refine (if_neg (by assumption)).trans ?_
              split at hm
              · exact (if_pos (by assumption)).trans (hkept hm)
              · exact (if_neg (by assumption)).trans hm
      · have hfront : (cs.take m).length = m := by
          rw [List.length_take]
          omega
        rw [List.take_add, hafter, List.append_assoc, List.drop_append_of_le_length hfront.ge,
          List.drop_of_length_le hfront.le]
        rfl
    · exact nomatch h
  · rename_i c cs hbackslash
    split at h
    · exact nomatch h
    · rename_i hc
      cases h
      refine ⟨Nat.le_add_left 2 _, fun rest => ?_⟩
      rw [List.take_succ_cons, List.take_succ_cons, List.cons_append, List.cons_append, runeLength,
        if_neg hc]
      exact hbackslash
  · exact nomatch h

/-! ### Tokens -/

/-- The characters with which strings, runes and nothing else begin. -/
def delimiters : List Char := ['\x00', '"', '\x60', '\'']

theorem tokenLength?_cons {c : Char} (hc : c ∉ delimiters) (cs : List Char) :
    tokenLength? (c :: cs) =
      if isLetter c then some (.word, (cs.takeWhile isIdentifierChar).length + 1)
      else (numberLength? (c :: cs)).or
        ((symbols.find? (·.isPrefixOf (c :: cs))).map fun s => (.symbol, s.length)) := by
  simp only [delimiters, List.mem_cons, List.not_mem_nil, or_false, not_or] at hc
  obtain ⟨hnul, hquote, hmark, hapostrophe⟩ := hc
  rw [tokenLength?]
  · cases numberLength? (c :: cs) <;> rfl
  all_goals assumption

theorem forall_mem_symbols : ∀ s ∈ symbols, s ≠ [] ∧ ' ' ∉ s := by decide +kernel

/-- Every token has a character at least, and ends in the source. -/
theorem tokenLength?_le {kind : TokenKind} (h : tokenLength? cs = some (kind, n)) :
    0 < n ∧ n ≤ cs.length := by
  have hclosed {M : Matcher} {kind' : TokenKind} {c : Char} {cs : List Char} (hM : Closes M)
      (h : (M cs).map (fun n => (kind', n + 1)) = some (kind, n)) :
      0 < n ∧ n ≤ (c :: cs).length := by
    obtain ⟨m, hm, heq⟩ := Option.map_eq_some_iff.mp h
    cases heq
    exact ⟨Nat.succ_pos m, Nat.succ_le_succ (hM _ _ hm).1⟩
  unfold tokenLength? at h
  split at h
  · exact nomatch h
  · cases h
    exact ⟨Nat.one_pos, Nat.succ_le_succ (Nat.zero_le _)⟩
  · exact hclosed closes_stringLength h
  · exact hclosed closes_rawStringLength h
  · exact hclosed closes_runeLength h
  · split at h
    · cases h
      exact ⟨Nat.succ_pos _, Nat.succ_le_succ (List.takeWhile_prefix _).length_le⟩
    · split at h
      · rename_i hnumber
        cases h
        exact numberLength?_word hnumber
      · obtain ⟨s, hs, heq⟩ := Option.map_eq_some_iff.mp h
        cases heq
        have hstart := List.find?_some hs
        exact ⟨List.length_pos_iff.mpr (forall_mem_symbols s (List.mem_of_find?_eq_some hs)).1,
          (List.isPrefixOf_iff_prefix.mp hstart).length_le⟩

/-- A beginning of a source without blanks ends in front of the first blank. -/
theorem prefix_of_notMem {s : List Char} (hx : x ∉ s) (h : s <+: a ++ x :: rest) : s <+: a := by
  rcases List.prefix_or_prefix_of_prefix h (List.prefix_append a (x :: rest)) with h' | h'
  · exact h'
  · obtain ⟨t, rfl⟩ := h'
    cases t with
    | nil => exact (List.append_nil a).symm ▸ List.prefix_rfl
    | cons y t =>
      rw [List.prefix_append_right_inj, List.cons_prefix_cons] at h
      exact absurd (List.mem_append_right a (h.1 ▸ List.mem_cons_self)) hx

/-- A mark is the same if a blank stands somewhere behind it. -/
theorem find?_symbols_cut {s : List Char} (h : symbols.find? (·.isPrefixOf (a ++ rest)) = some s)
    (hs : s.length ≤ a.length) (rest' : List Char) :
    symbols.find? (·.isPrefixOf (a ++ ' ' :: rest')) = some s := by
  rw [List.find?_eq_some_iff_append] at h ⊢
  obtain ⟨hstart, before, after, hsplit, hbefore⟩ := h
  refine ⟨?_, before, after, hsplit, fun b hb => ?_⟩
  · rw [List.isPrefixOf_iff_prefix] at hstart ⊢
    exact (List.prefix_of_prefix_length_le hstart (List.prefix_append a rest) hs).trans
      (List.prefix_append a _)
  · have hno := hbefore b hb
    rw [Bool.not_eq_true', ← Bool.not_eq_true, List.isPrefixOf_iff_prefix] at hno ⊢
    have hblank := (forall_mem_symbols b (hsplit ▸ List.mem_append_left _ hb)).2
    exact fun hb => hno ((prefix_of_notMem hblank hb).trans (List.prefix_append a rest))

/-- A word is the same if a character that no word holds stands somewhere behind it. -/
theorem length_takeWhile_cut (hx : p x = false) (h : ((a ++ rest).takeWhile p).length ≤ a.length)
    (rest' : List Char) :
    ((a ++ x :: rest').takeWhile p).length = ((a ++ rest).takeWhile p).length := by
  rw [List.takeWhile_append] at h ⊢
  rw [List.takeWhile_append]
  split
  · rename_i hall
    rw [if_pos hall, List.length_append] at h
    rw [List.takeWhile_cons_of_neg (Bool.eq_false_iff.mp hx), List.append_nil, List.length_append]
    omega
  · rfl

/-- A token is the same whatever stands behind it, as long as a blank stands somewhere behind it. -/
theorem tokenLength?_cut {kind : TokenKind} (h : tokenLength? (a ++ rest) = some (kind, n))
    (hn : n ≤ a.length) (rest' : List Char) :
    tokenLength? (a ++ ' ' :: rest') = some (kind, n) := by
  cases a with
  | nil =>
    have := (tokenLength?_le h).1
    rw [List.length_nil] at hn
    omega
  | cons c a =>
    have hclosed {M : Matcher} {kind' : TokenKind} (hM : Closes M)
        (h : (M (a ++ rest)).map (fun n => (kind', n + 1)) = some (kind, n)) :
        (M (a ++ ' ' :: rest')).map (fun n => (kind', n + 1)) = some (kind, n) := by
      obtain ⟨m, hm, heq⟩ := Option.map_eq_some_iff.mp h
      cases heq
      rw [hM.cut hm (Nat.le_of_succ_le_succ hn) (' ' :: rest')]
      rfl
    by_cases hc : c ∈ delimiters
    · simp only [delimiters, List.mem_cons, List.not_mem_nil, or_false] at hc
      rcases hc with rfl | rfl | rfl | rfl
      · exact h
      · exact hclosed closes_stringLength h
      · exact hclosed closes_rawStringLength h
      · exact hclosed closes_runeLength h
    · rw [List.cons_append, tokenLength?_cons hc] at h ⊢
      split at h
      · rename_i hletter
        cases h
        rw [if_pos hletter, length_takeWhile_cut (by rfl) (Nat.le_of_succ_le_succ hn) rest']
      · rename_i hletter
        rw [if_neg hletter]
        cases hnumber : numberLength? (c :: (a ++ rest)) with
        | some r =>
          rw [hnumber] at h
          cases h
          rw [← List.cons_append] at hnumber ⊢
          rw [numberLength?_cut rfl (by decide) hnumber hn rest']
          rfl
        | none =>
          rw [hnumber] at h
          obtain ⟨s, hs, heq⟩ := Option.map_eq_some_iff.mp h
          cases heq
          rw [← List.cons_append] at hnumber hs ⊢
          rw [numberLength?_cut_none rfl (by decide) hnumber rest', find?_symbols_cut hs hn rest']
          rfl

end ProviderCatalog.Go
