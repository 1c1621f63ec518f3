import ProviderCatalog.Archive.Gzip
import ProviderCatalog.Proofs.Archive.Inflating
import ProviderCatalog.Proofs.Computation
import Mathlib.Data.List.Infix

/-!
# Gzip streams that are cut off

A cut in the header of a stream makes it unreadable, or leaves nothing to decode but what is decoded
for an extra field. Behind the header the decoded bytes are cut off, too, unless the cut comes
before a fault: the blocks that are fetched end elsewhere then, so that more can be decoded before
the fault than of the whole stream.

## Main definitions

* `Source.CutFrom`: what a cut leaves of the decoded bytes.

## Main results

* `Gzip.body_of_cut`: the header of a stream that is cut off.
* `Gzip.decode_of_cut`: the decoded bytes of a stream that is cut off.
-/

namespace ProviderCatalog.Archive

/-- What a cut leaves of decoded bytes: the beginning, or, if there is a fault behind them, the
bytes and some that come before the fault. -/
inductive Source.CutFrom (x y : Source) : Prop
  | beginning (h : x.data <+: y.data)
  | beyond (h : y.data <+: x.data) (hy : y.isFaulty = true)

theorem Inflated.Extends.output {r r' : Inflated} (h : r.Extends r') : r.output <+: r'.output := by
  cases h with
  | same r => exact List.prefix_rfl
  | short h => exact h

theorem Inflated.Extends.faulty {r r' : Inflated} (h : r.Extends r') (hr : r.ending = .faulty) :
    r'.ending = .faulty := by
  cases h with
  | same r => exact hr
  | short h => exact nomatch hr

theorem Source.CutFrom.faulty {x y : Source} (h : x.CutFrom y) :
    x.CutFrom { y with isFaulty := true } := by
  cases h with
  | beginning h => exact .beginning h
  | beyond h hy => exact .beyond h rfl

namespace Gzip

variable {data cut : Bytes}

/-! ### Headers -/

/-- A place in a header that is cut off and the one in the whole header: they are the same unless
the cut comes before them. -/
def SamePlace (cut : Bytes) (place place' : Nat) : Prop := place = place' ∨ cut.length ≤ place

theorem afterText_append (place : Nat) (text more : Bytes) :
    afterText place text = afterText place (text ++ more) ∨
      afterText place text = place + text.length := by
  induction text generalizing place with
  | nil => exact .inr rfl
  | cons b text ih =>
    simp only [List.cons_append, afterText]
    split
    · exact .inl rfl
    · refine (ih (place + 1)).imp_right fun h => ?_
      rw [h, List.length_cons]
      omega

theorem le_afterText (place : Nat) (text : Bytes) : place ≤ afterText place text := by
  induction text generalizing place with
  | nil => exact Nat.le_refl _
  | cons b text ih =>
    rw [afterText]
    split
    · exact Nat.le_succ place
    · exact Nat.le_trans (Nat.le_succ place) (ih (place + 1))

theorem SamePlace.afterFlagged (hcut : cut <+: data) (flag : Bool) {place place' : Nat}
    (h : SamePlace cut place place') :
    SamePlace cut (afterFlagged cut flag place) (afterFlagged data flag place') := by
  obtain ⟨more, rfl⟩ := hcut
  cases flag with
  | false => exact h
  | true =>
    simp only [Gzip.afterFlagged, if_true]
    rcases Nat.lt_or_ge place cut.length with hplace | hplace
    · obtain rfl : place = place' := h.resolve_right (Nat.not_le_of_lt hplace)
      rw [List.drop_append_of_le_length (Nat.le_of_lt hplace)]
      refine (afterText_append place (cut.drop place) more).imp_right fun hend => ?_
      rw [hend, List.length_drop]
      omega
    · exact .inr (Nat.le_trans hplace (le_afterText _ _))

theorem SamePlace.afterTexts (hcut : cut <+: data) (flags : UInt8) {place place' : Nat}
    (h : SamePlace cut place place') :
    SamePlace cut (afterTexts cut flags place) (afterTexts data flags place') := by
  have htexts := (h.afterFlagged hcut (flags.toNat.testBit 3)).afterFlagged hcut
    (flags.toNat.testBit 4)
  unfold Gzip.afterTexts
  dsimp only
  split
  · exact htexts.imp (congrArg (· + 2)) (Nat.le_add_right_of_le ·)
  · exact htexts

theorem frontBlocks_prefix (hcut : cut <+: data) {n n' : Nat} (h : n ≤ n') :
    frontBlocks cut n <+: frontBlocks data n' := by
  have hle : n * fetchSize ≤ n' * fetchSize := Nat.mul_le_mul_right _ h
  have htake : cut.take (n * fetchSize) <+: data.take (n' * fetchSize) :=
    (hcut.take _).trans (List.take_prefix_take_left hle)
  exact htake.drop 12

/-- The blocks that are fetched for an extra field are not faulty. -/
theorem extraBlocks_eq_ok {extra bound n blocks : Nat}
    (h : extraBlocks data extra bound n = .ok blocks) :
    n ≤ blocks ∧ (inflate (frontBlocks data blocks)).ending ≠ .faulty := by
  induction bound generalizing n with
  | zero => exact nomatch h
  | succ bound ih =>
    rw [extraBlocks] at h
    split at h
    · exact nomatch h
    · rename_i hfaulty
      split at h
      · cases h
        exact ⟨Nat.le_refl _, hfaulty⟩
      · obtain ⟨hle, hblocks⟩ := ih h
        exact ⟨Nat.le_of_succ_le hle, hblocks⟩

/-- As many blocks are fetched for an extra field of a stream that is cut off as of the whole
stream, unless the cut stream ends with them. -/
theorem extraBlocks_of_cut (hcut : cut <+: data) {extra bound bound' n blocks blocks' : Nat}
    (h : extraBlocks cut extra bound n = .ok blocks)
    (h' : extraBlocks data extra bound' n = .ok blocks') :
    blocks = blocks' ∧ frontBlocks cut blocks = frontBlocks data blocks' ∨
      cut.length ≤ blocks * fetchSize ∧ frontBlocks cut blocks <+: frontBlocks data blocks' := by
  induction bound generalizing n bound' with
  | zero => exact nomatch h
  | succ bound ih =>
    have hle := (extraBlocks_eq_ok h').1
    cases bound' with
    | zero => exact nomatch h'
    | succ bound' =>
      rw [extraBlocks] at h h'
      split at h
      · exact nomatch h
      · split at h'
        · exact nomatch h'
        · rcases Nat.lt_or_ge (n * fetchSize) cut.length with hinside | hends
          · -- The blocks so far lie in front of the cut.
            have hfront : frontBlocks cut n = frontBlocks data n := by
              obtain ⟨more, rfl⟩ := hcut
              rw [frontBlocks, frontBlocks, List.take_append_of_le_length (Nat.le_of_lt hinside)]
            have hwhole := Nat.lt_of_lt_of_le hinside hcut.length_le
            rw [← hfront] at h'
            simp only [Nat.not_le_of_lt hinside, Nat.not_le_of_lt hwhole, decide_false,
              Bool.or_false] at h h'
            split at h
            · rename_i hlong
              rw [if_pos hlong] at h'
              cases h
              cases h'
              exact .inl ⟨rfl, hfront⟩
            · rename_i hlong
              rw [if_neg hlong] at h'
              exact ih h h'
          · rw [if_pos (by simp [hends])] at h
            cases h
            exact .inr ⟨hends, frontBlocks_prefix hcut hle⟩

/-- Where the deflated data of a stream that is cut off stands and that of the whole stream: they
stand alike unless the cut stream ends before its data goes on. -/
inductive SameBody (cut : Bytes) : Body → Body → Prop
  | same (b : Body) : SameBody cut b b
  | cutOff {b b' : Body} (hplace : cut.length ≤ b.place) (hfront : b.front <+: b'.front)
      (hextra : b.extra = b'.extra) : SameBody cut b b'

theorem afterExtra_of_cut (hcut : cut <+: data) {flags : UInt8} {b b' : Body}
    (h : afterExtra cut flags = .ok b) (h' : afterExtra data flags = .ok b') :
    SameBody cut b b' := by
  unfold afterExtra at h h'
  split at h
  · rename_i hflag
    rw [if_pos hflag] at h'
    cases h
    cases h'
    exact .same _
  · rename_i hflag
    rw [if_neg hflag] at h'
    split at h
    · rename_i low high rest hfield
      have hlength : 10 ≤ cut.length := by
        have hlength := congrArg List.length hfield
        rw [List.length_drop, List.length_cons] at hlength
        omega
      have hfield' : ∃ rest', data.drop 10 = low :: high :: rest' := by
        obtain ⟨more, rfl⟩ := hcut
        exact ⟨rest ++ more, by rw [List.drop_append_of_le_length hlength, hfield]; rfl⟩
      obtain ⟨rest', hfield'⟩ := hfield'
      rw [hfield'] at h'
      dsimp only at h h'
      split at h
      · rename_i hnone
        rw [if_pos hnone] at h'
        cases h
        cases h'
        exact .same _
      · rename_i hsome
        rw [if_neg hsome] at h'
        obtain ⟨blocks, hblocks, rfl⟩ := except_map_eq_ok.mp h
        obtain ⟨blocks', hblocks', rfl⟩ := except_map_eq_ok.mp h'
        rcases extraBlocks_of_cut hcut hblocks hblocks' with ⟨rfl, hfront⟩ | ⟨hends, hfront⟩
        · rw [hfront]
          exact .same _
        · exact .cutOff hends hfront rfl
    · exact nomatch h

theorem le_afterTexts (data : Bytes) (flags : UInt8) (place : Nat) :
    place ≤ afterTexts data flags place := by
  have hflagged (flag : Bool) (place : Nat) : place ≤ afterFlagged data flag place := by
    unfold afterFlagged
    split
    · exact le_afterText _ _
    · exact Nat.le_refl _
  have htexts := Nat.le_trans (hflagged (flags.toNat.testBit 3) place)
    (hflagged (flags.toNat.testBit 4) _)
  unfold afterTexts
  dsimp only
  split
  · exact Nat.le_add_right_of_le htexts
  · exact htexts

theorem body_eq_ok {b : Body} (h : body data = .ok b) :
    ∃ flags rest b₀, data = 0x1F :: 0x8B :: 0x08 :: flags :: rest ∧
      afterExtra data flags = .ok b₀ ∧ b = { b₀ with place := afterTexts data flags b₀.place } := by
  unfold body at h
  split at h
  · split at h
    · exact nomatch h
    · rename_i flags rest
      obtain ⟨b₀, hb₀, rfl⟩ := except_map_eq_ok.mp h
      exact ⟨flags, rest, b₀, rfl, hb₀, rfl⟩
  · exact nomatch h

/-- What is decoded for an extra field is not faulty. -/
theorem body_front {b : Body} (h : body data = .ok b) : (inflate b.front).ending ≠ .faulty := by
  obtain ⟨flags, rest, b₀, -, hextra, rfl⟩ := body_eq_ok h
  have hnone : (inflate []).ending ≠ .faulty := by decide
  unfold afterExtra at hextra
  split at hextra
  · cases hextra
    exact hnone
  · split at hextra
    · dsimp only at hextra
      split at hextra
      · cases hextra
        exact hnone
      · obtain ⟨blocks, hblocks, rfl⟩ := except_map_eq_ok.mp hextra
        exact (extraBlocks_eq_ok hblocks).2
    · exact nomatch hextra

/-- If the header of a stream that is cut off can be read, the deflated data behind it stands where
that of the whole stream does, or not before the cut. -/
theorem body_of_cut (hcut : cut <+: data) {b b' : Body} (h : body cut = .ok b)
    (h' : body data = .ok b') : SameBody cut b b' := by
  obtain ⟨flags, rest, b₀, heq, hextra, rfl⟩ := body_eq_ok h
  obtain ⟨flags', rest', b₀', heq', hextra', rfl⟩ := body_eq_ok h'
  obtain rfl : flags = flags' := by
    rw [heq, heq'] at hcut
    simp only [List.cons_prefix_cons, true_and] at hcut
    exact hcut.1
  cases afterExtra_of_cut hcut hextra hextra' with
  | same =>
    have hplace : SamePlace cut b₀.place b₀.place := .inl rfl
    rcases hplace.afterTexts hcut flags with hsame | hends
    · rw [hsame]
      exact .same _
    · exact .cutOff hends List.prefix_rfl rfl
  | cutOff hplace hfront heq =>
    exact .cutOff (Nat.le_trans hplace (le_afterTexts _ _ _)) hfront heq

/-! ### Decoded bytes -/

theorem decodeBlocks_succ_of_faulty {b : Body} {n : Nat}
    (h : (inflate (b.upTo data (n + 1))).ending = .faulty) :
    decodeBlocks data b (n + 1) = { decodeBlocks data b n with isFaulty := true } := by
  rw [decodeBlocks]
  exact if_pos h

theorem decodeBlocks_succ {b : Body} {n : Nat}
    (h : (inflate (b.upTo data (n + 1))).ending ≠ .faulty) :
    (decodeBlocks data b (n + 1)).data = (inflate (b.upTo data (n + 1))).output ∧
      (decodeBlocks data b (n + 1)).isFaulty = false := by
  rw [decodeBlocks]
  dsimp only
  rw [if_neg h]
  exact ⟨rfl, rfl⟩

theorem decodeBlocks_skipped (data : Bytes) (b : Body) (n : Nat) :
    (decodeBlocks data b n).skipped = b.extra := by
  induction n with
  | zero => rfl
  | succ n ih =>
    rw [decodeBlocks]
    dsimp only
    split
    · exact ih
    · rfl

/-- The data that is decoded of the first blocks is the same for streams in which they are. -/
theorem decodeBlocks_congr {n : Nat} (h : cut.take (n * fetchSize) = data.take (n * fetchSize))
    (b : Body) : (decodeBlocks cut b n).data = (decodeBlocks data b n).data := by
  induction n with
  | zero => rfl
  | succ n ih =>
    have hle : n * fetchSize ≤ (n + 1) * fetchSize := Nat.mul_le_mul_right _ (Nat.le_succ n)
    have hfirst := congrArg (List.take (n * fetchSize)) h
    rw [List.take_take, List.take_take, Nat.min_eq_left hle] at hfirst
    have hupTo : b.upTo cut (n + 1) = b.upTo data (n + 1) := by
      rw [Body.upTo, Body.upTo, h]
    by_cases hfaulty : (inflate (b.upTo data (n + 1))).ending = .faulty
    · rw [decodeBlocks_succ_of_faulty hfaulty, decodeBlocks_succ_of_faulty (hupTo ▸ hfaulty)]
      exact ih hfirst
    · rw [(decodeBlocks_succ hfaulty).1, (decodeBlocks_succ (hupTo ▸ hfaulty)).1, hupTo]

theorem inflate_extends {front front' : Bytes} (h : front <+: front') :
    (inflate front).Extends (inflate front') := by
  obtain ⟨more, rfl⟩ := h
  exact inflate_append front more

/-- What is decoded of the first blocks is the beginning of what longer data gives by itself. -/
theorem decodeBlocks_prefix {b : Body} {n : Nat} {body : Bytes}
    (h : b.upTo data n <+: body) :
    (decodeBlocks data b n).data <+: (inflate body).output := by
  induction n with
  | zero => exact (inflate_extends ((List.prefix_append _ _).trans h)).output
  | succ n ih =>
    by_cases hfaulty : (inflate (b.upTo data (n + 1))).ending = .faulty
    · rw [decodeBlocks_succ_of_faulty hfaulty]
      have hle : n * fetchSize ≤ (n + 1) * fetchSize := Nat.mul_le_mul_right _ (Nat.le_succ n)
      refine ih (List.IsPrefix.trans ?_ h)
      exact List.prefix_append_right_inj _ |>.mpr ((List.take_prefix_take_left hle).drop _)
    · rw [(decodeBlocks_succ hfaulty).1]
      exact (inflate_extends h).output

/-- What is decoded for an extra field is the beginning of what is decoded. -/
theorem front_prefix_decodeBlocks (data : Bytes) (b : Body) (n : Nat) :
    (inflate b.front).output <+: (decodeBlocks data b n).data := by
  induction n with
  | zero => exact List.prefix_rfl
  | succ n ih =>
    by_cases hfaulty : (inflate (b.upTo data (n + 1))).ending = .faulty
    · rw [decodeBlocks_succ_of_faulty hfaulty]
      exact ih
    · rw [(decodeBlocks_succ hfaulty).1]
      exact (inflate_extends (List.prefix_append _ _)).output

/-- Where all longer data turns out faulty, the blocks before it are what is decoded. -/
theorem decodeBlocks_of_faulty {b : Body} {n : Nat}
    (h : ∀ k, (inflate (b.upTo data (n + k + 1))).ending = .faulty) (more : Nat) :
    (decodeBlocks data b (n + more + 1)).data = (decodeBlocks data b n).data := by
  induction more with
  | zero => rw [Nat.add_zero, decodeBlocks_succ_of_faulty (h 0)]
  | succ more ih =>
    rw [decodeBlocks_succ_of_faulty (h (more + 1))]
    exact ih

/-- An output that is part of all that longer data gives, and no less than what the blocks before it
give, is what a cut may leave. -/
theorem decodeBlocks_cutFrom {b : Body} {n : Nat} {x : Source}
    (hbefore : (decodeBlocks data b n).data <+: x.data)
    (h : ∀ k, x.data <+: (inflate (b.upTo data (n + k + 1))).output) (more : Nat) :
    x.CutFrom (decodeBlocks data b (n + more + 1)) := by
  induction more with
  | zero =>
    by_cases hfaulty : (inflate (b.upTo data (n + 1))).ending = .faulty
    · rw [Nat.add_zero, decodeBlocks_succ_of_faulty hfaulty]
      exact .beyond hbefore rfl
    · refine .beginning ?_
      rw [Nat.add_zero, (decodeBlocks_succ hfaulty).1]
      exact h 0
  | succ more ih =>
    by_cases hfaulty : (inflate (b.upTo data (n + (more + 1) + 1))).ending = .faulty
    · rw [decodeBlocks_succ_of_faulty hfaulty]
      exact ih.faulty
    · refine .beginning ?_
      rw [(decodeBlocks_succ hfaulty).1]
      exact h (more + 1)

/-- The blocks that are fetched of a stream that is cut off, and at least as many of the whole
stream. -/
theorem decodeBlocks_of_cut (hcut : cut <+: data) (b : Body) (more : Nat) :
    (decodeBlocks cut b (cut.length / fetchSize + 1)).CutFrom
      (decodeBlocks data b (cut.length / fetchSize + more + 1)) := by
  have hsize : cut.length < (cut.length / fetchSize + 1) * fetchSize := by
    rw [Nat.mul_comm]
    exact Nat.lt_mul_div_succ cut.length (by decide)
  generalize hn : cut.length / fetchSize = n at hsize
  have hn : n * fetchSize ≤ cut.length := hn ▸ Nat.div_mul_le_self _ _
  have hlast : b.upTo cut (n + 1) = b.front ++ cut.drop b.place := by
    rw [Body.upTo, List.take_of_length_le (Nat.le_of_lt hsize)]
  have hextends (k : Nat) :
      (inflate (b.upTo cut (n + 1))).Extends (inflate (b.upTo data (n + k + 1))) := by
    refine inflate_extends ?_
    rw [hlast, Body.upTo, List.prefix_append_right_inj]
    refine (List.prefix_take_iff.mpr ⟨hcut, ?_⟩).drop b.place
    exact Nat.le_trans (Nat.le_of_lt hsize) (Nat.mul_le_mul_right _ (by omega))
  have hfirst : (decodeBlocks cut b n).data = (decodeBlocks data b n).data := by
    refine decodeBlocks_congr ?_ b
    obtain ⟨rest, rfl⟩ := hcut
    rw [List.take_append_of_le_length hn]
  by_cases hfaulty : (inflate (b.upTo cut (n + 1))).ending = .faulty
  · have hall (k : Nat) : (inflate (b.upTo data (n + k + 1))).ending = .faulty :=
      (hextends k).faulty hfaulty
    refine .beginning ?_
    rw [decodeBlocks_succ_of_faulty hfaulty, decodeBlocks_of_faulty hall more]
    exact hfirst ▸ List.prefix_rfl
  · have hdata := (decodeBlocks_succ hfaulty).1
    have hpart (k : Nat) :
        (decodeBlocks cut b (n + 1)).data <+: (inflate (b.upTo data (n + k + 1))).output := by
      rw [hdata]
      exact (hextends k).output
    refine decodeBlocks_cutFrom ?_ hpart more
    rw [hdata, ← hfirst, hlast]
    refine decodeBlocks_prefix ((List.prefix_append_right_inj _).mpr ?_)
    exact (List.take_prefix _ _).drop _

/-- The decoded bytes of a stream that is cut off. -/
theorem decode_of_cut (hcut : cut <+: data) {s t : Source} (h : decode cut = .ok s)
    (h' : decode data = .ok t) : s.skipped = t.skipped ∧ s.CutFrom t := by
  obtain ⟨b, hb, rfl⟩ := except_map_eq_ok.mp h
  obtain ⟨b', hb', rfl⟩ := except_map_eq_ok.mp h'
  rw [decodeBlocks_skipped, decodeBlocks_skipped]
  cases body_of_cut hcut hb hb' with
  | same =>
    obtain ⟨more, hmore⟩ := Nat.exists_eq_add_of_le
      (Nat.div_le_div_right (c := fetchSize) hcut.length_le)
    rw [hmore]
    exact ⟨rfl, decodeBlocks_of_cut hcut b more⟩
  | cutOff hplace hfront hextra =>
    -- Nothing is left behind the header.
    have hupTo : b.upTo cut (cut.length / fetchSize + 1) = b.front := by
      have hnone : (cut.take ((cut.length / fetchSize + 1) * fetchSize)).drop b.place = [] :=
        List.drop_eq_nil_of_le (Nat.le_trans (List.length_take_le' _ _) hplace)
      rw [Body.upTo, hnone, List.append_nil]
    have hclean : (inflate (b.upTo cut (cut.length / fetchSize + 1))).ending ≠ .faulty := by
      rw [hupTo]
      exact body_front hb
    have hdata := (decodeBlocks_succ hclean).1
    refine ⟨hextra, .beginning ?_⟩
    rw [hdata, hupTo]
    exact (inflate_extends hfront).output.trans (front_prefix_decodeBlocks data b' _)

end Gzip

end ProviderCatalog.Archive
