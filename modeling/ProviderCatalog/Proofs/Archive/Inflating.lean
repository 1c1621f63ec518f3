import ProviderCatalog.Archive.Deflate

/-!
# Deflated data that is cut off

A reader that finds a value at the start of some bits finds the same value when further bits follow,
and bits that it refuses it refuses then, too. Only where the bits end too early can further bits
make a difference. So the output of deflated data that is cut off is the beginning of the output of
the whole data, or the cut comes too late to be seen at all.

## Main definitions

* `Taken.Extends`, `Steady`: what further bits can change about what a reader finds.
* `Deflate.Progress.Extends`, `Inflated.Extends`: what they can change about the output.

## Main results

* `Deflate.codedBlock_extends`, `Deflate.blockBody_extends`: further bits behind a block.
* `inflate_append`: further bytes behind deflated data.
-/

namespace ProviderCatalog.Archive

variable {α β : Type} {x : Bits}

/-! ### Readers -/

/-- What a reader finds when `x` follows the bits, after what it finds without: the same, unless the
bits end too early. -/
inductive Taken.Extends (x : Bits) : Taken α → Taken α → Prop
  | found (a : α) (rest : Bits) : Extends x (.found a rest) (.found a (rest ++ x))
  | faulty : Extends x .faulty .faulty
  | short (t : Taken α) : Extends x .short t

/-- A reader to which it makes no difference that `x` follows bits which do not end too early. -/
def Steady (x : Bits) (read : Bits → Taken α) : Prop :=
  ∀ bits, (read bits).Extends x (read (bits ++ x))

theorem Taken.Extends.andThen {t t' : Taken α} {f : α → Bits → Taken β} (h : t.Extends x t')
    (hf : ∀ a, Steady x (f a)) : (t.andThen f).Extends x (t'.andThen f) := by
  cases h with
  | found a rest => exact hf a rest
  | faulty => exact .faulty
  | short t => exact .short _

theorem Steady.andThen {read : Bits → Taken α} {f : α → Bits → Taken β} (h : Steady x read)
    (hf : ∀ a, Steady x (f a)) : Steady x fun bits => (read bits).andThen f :=
  fun bits => (h bits).andThen hf

theorem Steady.found (a : α) : Steady x (Taken.found a) := Taken.Extends.found a

theorem Steady.faulty : Steady x fun _ => (Taken.faulty : Taken α) := fun _ => .faulty

theorem Bits.number_steady (width : Nat) : Steady x (Bits.number width) := by
  intro bits
  induction width generalizing bits with
  | zero => exact .found 0 bits
  | succ width ih =>
    cases bits with
    | nil => exact .short _
    | cons b bits =>
      have hrest := ih bits
      simp only [List.cons_append, Bits.number]
      revert hrest
      generalize Bits.number width bits = t, Bits.number width (bits ++ x) = t'
      rintro (⟨n, rest⟩ | _ | _)
      · exact .found _ rest
      · exact .faulty
      · exact .short _

/-- Whole bytes behind some bits do not move the next boundary of a byte. -/
theorem Bits.toByteBoundary_append (hx : x.length % 8 = 0) (bits : Bits) :
    (bits ++ x).toByteBoundary = bits.toByteBoundary ++ x := by
  have hlength : (bits ++ x).length % 8 = bits.length % 8 := by
    rw [List.length_append]
    omega
  rw [toByteBoundary, hlength, List.drop_append_of_le_length (Nat.mod_le _ _), toByteBoundary]

theorem PrefixCode.symbolFrom_steady (word first : Nat) (symbols counts : List Nat) :
    Steady x (symbolFrom word first symbols counts) := by
  intro bits
  induction counts generalizing word first symbols bits with
  | nil => exact .faulty
  | cons count counts ih =>
    cases bits with
    | nil => exact .short _
    | cons b bits =>
      simp only [List.cons_append, symbolFrom]
      split
      · cases symbols[word + b.toNat - first]? with
        | some s => exact .found s bits
        | none => exact .faulty
      · exact ih _ _ _ bits

theorem PrefixCode.symbol_steady (c : PrefixCode) : Steady x c.symbol :=
  symbolFrom_steady 0 0 c.symbols c.counts

namespace Deflate

theorem measured_steady (table : List (Nat × Nat)) (symbol : Nat) :
    Steady x (measured table symbol) := by
  intro bits
  simp only [measured]
  cases table[symbol]? with
  | none => exact .faulty
  | some entry => exact (Bits.number_steady _ bits).andThen fun n => .found _

theorem item_steady (literals distances : PrefixCode) : Steady x (item literals distances) := by
  refine literals.symbol_steady.andThen fun s => ?_
  by_cases hliteral : s < 256
  · simpa only [if_pos hliteral] using Steady.found _
  · by_cases hend : s = 256
    · simpa only [if_neg hliteral, if_pos hend] using Steady.found _
    · simp only [if_neg hliteral, if_neg hend]
      refine (measured_steady _ _).andThen fun length => distances.symbol_steady.andThen fun d => ?_
      exact (measured_steady _ _).andThen fun distance => .found _

theorem triples_steady (n : Nat) : Steady x (triples n) := by
  induction n with
  | zero => exact .found []
  | succ n ih =>
    exact (Bits.number_steady 3).andThen fun m => ih.andThen fun ms => .found _

theorem codeLengths_steady (code : PrefixCode) (total bound : Nat) (given : List Nat) :
    Steady x (codeLengths code total bound given) := by
  induction bound generalizing given with
  | zero => exact fun _ => .short _
  | succ bound ih =>
    have hrepeated (value width least : Nat) :
        Steady x fun bits => (Bits.number width bits).andThen fun n rest =>
          if total < given.length + least + n then .faulty
          else codeLengths code total bound (List.replicate (least + n) value ++ given) rest := by
      refine (Bits.number_steady width).andThen fun n => ?_
      by_cases hmany : total < given.length + least + n
      · simpa only [if_pos hmany] using Steady.faulty
      · simpa only [if_neg hmany] using ih _
    intro bits
    simp only [codeLengths]
    split
    · exact .found _ bits
    · refine (code.symbol_steady bits).andThen fun s => ?_
      by_cases hshort : s < 16
      · simpa only [if_pos hshort] using ih _
      · by_cases hsame : s = 16
        · simp only [if_neg hshort, if_pos hsame]
          cases given with
          | nil => exact .faulty
          | cons last given => exact hrepeated last 2 3
        · by_cases hzeros : s = 17
          · simpa only [if_neg hshort, if_neg hsame, if_pos hzeros] using hrepeated 0 3 3
          · simpa only [if_neg hshort, if_neg hsame, if_neg hzeros] using hrepeated 0 7 11

theorem describedCodes_steady : Steady x describedCodes := by
  refine (Bits.number_steady 5).andThen fun literalCount => ?_
  refine (Bits.number_steady 5).andThen fun distanceCount => ?_
  refine (Bits.number_steady 4).andThen fun lengthCount => ?_
  intro bits
  dsimp only
  split
  · exact .faulty
  · refine (triples_steady _ bits).andThen fun lengths rest => ?_
    split
    · exact .faulty
    · refine (codeLengths_steady _ _ _ _ rest).andThen fun found rest => ?_
      split
      · exact .faulty
      · exact .found _ rest

/-! ### Blocks -/

/-- The output when `x` follows the bits, after the output without: the same, unless the bits end
too early, and then at least as much. -/
inductive Progress.Extends (x : Bits) : Progress → Progress → Prop
  | ok (reversed : Bytes) (rest : Bits) :
      Extends x ⟨reversed, .ok rest⟩ ⟨reversed, .ok (rest ++ x)⟩
  | faulty (reversed : Bytes) : Extends x ⟨reversed, .error .faulty⟩ ⟨reversed, .error .faulty⟩
  | short {reversed : Bytes} {p : Progress} (h : reversed <:+ p.reversed) :
      Extends x ⟨reversed, .error .short⟩ p

theorem suffix_appendRepeated (period ahead : Bytes) (n : Nat) (reversed : Bytes) :
    reversed <:+ appendRepeated period ahead n reversed := by
  induction n generalizing ahead reversed with
  | zero => exact List.suffix_rfl
  | succ n ih =>
    cases ahead with
    | cons b ahead => exact (List.suffix_cons b reversed).trans (ih ahead _)
    | nil =>
      cases period with
      | cons b period => exact (List.suffix_cons b reversed).trans (ih period _)
      | nil => exact List.suffix_rfl

theorem suffix_codedBlock (literals distances : PrefixCode) (bound : Nat) (reversed : Bytes)
    (bits : Bits) : reversed <:+ (codedBlock literals distances bound reversed bits).reversed := by
  induction bound generalizing reversed bits with
  | zero => exact List.suffix_rfl
  | succ bound ih =>
    rw [codedBlock]
    split
    · exact List.suffix_rfl
    · exact List.suffix_rfl
    · exact List.suffix_rfl
    · exact (List.suffix_cons _ reversed).trans (ih _ _)
    · split
      · exact List.suffix_rfl
      · exact (suffix_appendRepeated _ _ _ reversed).trans (ih _ _)

theorem suffix_plainBytes (n : Nat) (reversed : Bytes) (bits : Bits) :
    reversed <:+ (plainBytes n reversed bits).reversed := by
  induction n generalizing reversed bits with
  | zero => exact List.suffix_rfl
  | succ n ih =>
    rw [plainBytes]
    split
    · exact (List.suffix_cons _ reversed).trans (ih _ _)
    · exact List.suffix_rfl
    · exact List.suffix_rfl

theorem suffix_plainBlock (reversed : Bytes) (bits : Bits) :
    reversed <:+ (plainBlock reversed bits).reversed := by
  unfold plainBlock
  dsimp only
  split
  · exact suffix_plainBytes _ reversed _
  · exact List.suffix_rfl
  · exact List.suffix_rfl

theorem suffix_blockBody (kind : Nat) (reversed : Bytes) (bits : Bits) :
    reversed <:+ (blockBody kind reversed bits).reversed := by
  unfold blockBody
  split
  · exact suffix_plainBlock reversed bits
  · exact suffix_codedBlock _ _ _ reversed bits
  · split
    · exact suffix_codedBlock _ _ _ reversed _
    · exact List.suffix_rfl
    · exact List.suffix_rfl
  · exact List.suffix_rfl

/-- Further bits behind a coded block, and a bound that is not lower. -/
theorem codedBlock_extends (literals distances : PrefixCode) {n m : Nat} (h : n ≤ m)
    (reversed : Bytes) (bits : Bits) :
    (codedBlock literals distances n reversed bits).Extends x
      (codedBlock literals distances m reversed (bits ++ x)) := by
  induction n generalizing m reversed bits with
  | zero => exact .short (suffix_codedBlock _ _ _ _ _)
  | succ n ih =>
    obtain ⟨m, rfl⟩ := Nat.exists_eq_add_of_le' (Nat.zero_lt_of_lt h)
    have hm : n ≤ m := Nat.le_of_succ_le_succ h
    have hgrows := suffix_codedBlock literals distances (m + 1) reversed (bits ++ x)
    have hitem := item_steady (x := x) literals distances bits
    revert hgrows hitem
    simp only [codedBlock]
    generalize item literals distances bits = t, item literals distances (bits ++ x) = t'
    rintro hgrows (⟨_ | _ | _, rest⟩ | _ | _)
    · exact ih hm _ rest
    · dsimp only
      split
      · exact .faulty reversed
      · exact ih hm _ rest
    · exact .ok reversed rest
    · exact .faulty reversed
    · exact .short hgrows

theorem plainBytes_extends (n : Nat) (reversed : Bytes) (bits : Bits) :
    (plainBytes n reversed bits).Extends x (plainBytes n reversed (bits ++ x)) := by
  induction n generalizing reversed bits with
  | zero => exact .ok reversed bits
  | succ n ih =>
    have hgrows := suffix_plainBytes (n + 1) reversed (bits ++ x)
    have hnumber := Bits.number_steady (x := x) 8 bits
    revert hgrows hnumber
    simp only [plainBytes]
    generalize Bits.number 8 bits = t, Bits.number 8 (bits ++ x) = t'
    rintro hgrows (⟨b, rest⟩ | _ | _)
    · exact ih _ rest
    · exact .faulty reversed
    · exact .short hgrows

theorem plainBlock_extends (hx : x.length % 8 = 0) (reversed : Bytes) (bits : Bits) :
    (plainBlock reversed bits).Extends x (plainBlock reversed (bits ++ x)) := by
  have hgrows := suffix_plainBlock reversed (bits ++ x)
  have hheader : Steady x fun bits => (Bits.number 16 bits).andThen fun n rest =>
      (Bits.number 16 rest).andThen fun complement rest =>
        if n + complement = 0xFFFF then .found n rest else .faulty := by
    refine (Bits.number_steady 16).andThen fun n => (Bits.number_steady 16).andThen fun m rest => ?_
    split
    · exact .found n rest
    · exact .faulty
  have hnumber := hheader bits.toByteBoundary
  revert hgrows hnumber
  simp only [plainBlock, Bits.toByteBoundary_append hx]
  generalize (Bits.number 16 bits.toByteBoundary).andThen _ = t,
    (Bits.number 16 (bits.toByteBoundary ++ x)).andThen _ = t'
  rintro hgrows (⟨n, rest⟩ | _ | _)
  · exact plainBytes_extends n reversed rest
  · exact .faulty reversed
  · exact .short hgrows

/-- Further bits behind the inside of a block. -/
theorem blockBody_extends (hx : x.length % 8 = 0) (kind : Nat) (reversed : Bytes) (bits : Bits) :
    (blockBody kind reversed bits).Extends x (blockBody kind reversed (bits ++ x)) := by
  have hbound (bits : Bits) : bits.length + 1 ≤ (bits ++ x).length + 1 := by
    rw [List.length_append]
    omega
  have hgrows := suffix_blockBody kind reversed (bits ++ x)
  revert hgrows
  unfold blockBody
  split
  · exact fun _ => plainBlock_extends hx reversed bits
  · exact fun _ => codedBlock_extends _ _ (hbound bits) reversed bits
  · have hcodes := describedCodes_steady (x := x) bits
    revert hcodes
    generalize describedCodes bits = t, describedCodes (bits ++ x) = t'
    rintro (⟨codes, rest⟩ | _ | _) hgrows
    · exact codedBlock_extends _ _ (hbound rest) reversed rest
    · exact .faulty reversed
    · exact .short hgrows
  · exact fun _ => .faulty reversed

end Deflate

/-! ### Deflated data -/

/-- The output of more data, after the output of less: the same, unless the data is too short, and
then at least as much. -/
inductive Inflated.Extends : Inflated → Inflated → Prop
  | same (r : Inflated) : Extends r r
  | short {output : Bytes} {r : Inflated} (h : output <+: r.output) : Extends ⟨output, .short⟩ r

namespace Deflate

theorem prefix_blocks (bound : Nat) (reversed : Bytes) (bits : Bits) :
    reversed.reverse <+: (blocks bound reversed bits).output := by
  induction bound generalizing reversed bits with
  | zero => exact List.prefix_rfl
  | succ bound ih =>
    rw [blocks]
    dsimp only
    split
    · exact List.prefix_rfl
    · exact List.prefix_rfl
    · rename_i kind rest _
      have hbody := List.reverse_prefix.mpr (suffix_blockBody kind reversed rest)
      split
      · exact hbody
      · split
        · exact hbody
        · exact hbody.trans (ih _ _)

/-- Further bits behind some blocks, and a bound that is not lower. -/
theorem blocks_extends (hx : x.length % 8 = 0) {n m : Nat} (h : n ≤ m) (reversed : Bytes)
    (bits : Bits) :
    (blocks n reversed bits).Extends (blocks m reversed (bits ++ x)) := by
  induction n generalizing m reversed bits with
  | zero => exact .short (prefix_blocks _ _ _)
  | succ n ih =>
    obtain ⟨m, rfl⟩ := Nat.exists_eq_add_of_le' (Nat.zero_lt_of_lt h)
    have hm : n ≤ m := Nat.le_of_succ_le_succ h
    have hgrows := prefix_blocks (m + 1) reversed (bits ++ x)
    have hheader : Steady x fun bits => (Bits.number 1 bits).andThen fun last rest =>
        (Bits.number 2 rest).andThen fun kind rest => .found (last, kind) rest :=
      (Bits.number_steady 1).andThen fun _ => (Bits.number_steady 2).andThen fun _ => .found _
    have hread := hheader bits
    revert hgrows hread
    simp only [blocks]
    generalize (Bits.number 1 bits).andThen _ = t, (Bits.number 1 (bits ++ x)).andThen _ = t'
    rintro hgrows (⟨⟨last, kind⟩, rest⟩ | _ | _)
    · have hbody := blockBody_extends hx kind reversed rest
      revert hgrows hbody
      dsimp only
      generalize blockBody kind reversed rest = p, blockBody kind reversed (rest ++ x) = p'
      rintro hgrows (⟨reversed, rest⟩ | _ | hshort)
      · dsimp only
        split
        · exact .same _
        · exact ih hm reversed rest
      · exact .same _
      · refine .short ((List.reverse_prefix.mpr hshort).trans ?_)
        split
        · exact List.prefix_rfl
        · split
          · exact List.prefix_rfl
          · exact prefix_blocks _ _ _
    · exact .same _
    · exact .short hgrows

end Deflate

theorem Bits.length_ofBytes (bs : Bytes) : (Bits.ofBytes bs).length = 8 * bs.length := by
  induction bs with
  | nil => rfl
  | cons b bs ih =>
    have hbyte : (Bits.ofByte b).length = 8 := by
      rw [ofByte, List.length_map, List.length_range]
    rw [ofBytes, List.flatMap_cons, List.length_append, hbyte, List.length_cons]
    rw [ofBytes] at ih
    omega

/-- The output of deflated data that is cut off is the beginning of the output of the whole data, or
the cut makes no difference. -/
theorem inflate_append (data more : Bytes) : (inflate data).Extends (inflate (data ++ more)) := by
  have hbits : Bits.ofBytes (data ++ more) = Bits.ofBytes data ++ Bits.ofBytes more :=
    List.flatMap_append
  have hmore : (Bits.ofBytes more).length % 8 = 0 := by
    rw [Bits.length_ofBytes]
    omega
  rw [inflate, inflate, hbits]
  refine Deflate.blocks_extends hmore ?_ _ _
  rw [List.length_append]
  omega

end ProviderCatalog.Archive
