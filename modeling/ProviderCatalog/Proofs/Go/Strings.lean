import ProviderCatalog.Proofs.Go.Integers
import ProviderCatalog.Go.Grammar.Expression

/-!
# The strings that expressions spell

An expression made of string literals with plus signs and parentheses spells the values of its
literals, put together from left to right; how they are grouped does not matter. If one of the
operands is no string literal, the expression spells nothing.

A document encodes a string in many ways: a character stands for itself, unless it is a control
character, a quotation mark or a backslash, or it is written with a short escape, or by its number,
in two halves if the number takes more than four digits. Between quotation marks each of these
encodings is an interpreted string literal of the language, and its value is the string.

## Main definitions

* `Node.operands`: the operands of plus signs inside parentheses and wrappers.
* `Json.Encodes`: the encodings of a string.

## Main results

* `Node.stringValue?_eq`: the string that an expression spells.
* `Json.Encodes.read?_eq`, `tokenLength?_quoted`: an encoding is read, and it is one token.
* `Node.stringValue?_faithful`: expressions of literals, and literals that are encodings.
-/

namespace ProviderCatalog

/-! ### Encodings of strings -/

namespace Json

open Go (isHex digitValue)

/-- The letters and marks of short escapes with the characters that they stand for. -/
def shortEscapes : List (Char × Char) :=
  [('"', '"'), ('\\', '\\'), ('/', '/'), ('b', '\x08'), ('f', '\x0c'), ('n', '\n'), ('r', '\r'),
    ('t', '\t')]

/-- Four hexadecimal digits with the number that they denote. -/
inductive FourDigits : List Char → Nat → Prop where
  | digits {a b c d : Char} {n : Nat} (ha : isHex a = true) (hb : isHex b = true)
      (hc : isHex c = true) (hd : isHex d = true)
      (hn : 0x1000 * digitValue a + 0x100 * digitValue b + 0x10 * digitValue c + digitValue d = n) :
      FourDigits [a, b, c, d] n

theorem FourDigits.length_eq {ds : List Char} {n : Nat} (h : FourDigits ds n) : ds.length = 4 := by
  cases h
  rfl

theorem FourDigits.isHex {ds : List Char} {n : Nat} (h : FourDigits ds n) :
    ∀ d ∈ ds, isHex d = true := by
  cases h
  simp_all

/-- The ways of writing a character between the quotation marks of a document. -/
inductive EncodesChar : List Char → Char → Prop where
  | plain {c : Char} (hcontrol : 0x20 ≤ c.toNat) (hquote : c ≠ '"') (hbackslash : c ≠ '\\') :
      EncodesChar [c] c
  | short {e c : Char} (h : (e, c) ∈ shortEscapes) : EncodesChar ['\\', e] c
  | number {ds : List Char} {c : Char} (h : FourDigits ds c.toNat) :
      EncodesChar ('\\' :: 'u' :: ds) c
  | halves {ds ds' : List Char} {c : Char} (hc : 0x10000 ≤ c.toNat)
      (hhigh : FourDigits ds (0xD800 + (c.toNat - 0x10000) / 0x400))
      (hlow : FourDigits ds' (0xDC00 + (c.toNat - 0x10000) % 0x400)) :
      EncodesChar ('\\' :: 'u' :: ds ++ '\\' :: 'u' :: ds') c

/-- The encodings of a string, without the quotation marks around them. -/
inductive Encodes : List Char → List Char → Prop where
  | nil : Encodes [] []
  | cons {e es : List Char} {c : Char} {cs : List Char} (hc : EncodesChar e c)
      (hcs : Encodes es cs) : Encodes (e ++ es) (c :: cs)

variable {c : Char} {e s ds : List Char} {n : Nat} {r : Text} {found : List Token}

theorem hexValue?_of_isHex (h : isHex c = true) : hexValue? c = some (digitValue c) := by
  have hvalue : (hexValue? c).getD 16 = digitValue c := Go.isDigitClass_isHex.value_eq h
  have hlt : (hexValue? c).getD 16 < 16 := Go.isDigitClass_isHex.value_lt h
  cases hc : hexValue? c with
  | none => simp [hc] at hlt
  | some v => rw [← hvalue, hc]; rfl

theorem scan_of_step {st st' : Scan} {x : CodePoint} (h : step lenient st x = ([], some st'))
    (t : Text) : scan lenient found st (x :: t) = scan lenient found st' t := by
  cases st <;> rw [scan, h] <;> rfl

theorem step_digit (h : isHex c = true) (p : Partial) {k : Nat} (hk : k ≠ 3) (v : Nat) :
    step lenient (.hex p k v) (.scalar c) =
      ([], some (.hex p (k + 1) (16 * v + digitValue c))) := by
  simp [step, CodePoint.toChar?, hexValue?_of_isHex h, hk]

/-- The automaton goes over an escape by a number. -/
theorem scan_number {p q : Partial} (h : FourDigits ds n) (hq : p.pushNumber? lenient n = some q)
    (rest : List Char) :
    scan lenient found (.string p) (Text.ofChars ('\\' :: 'u' :: ds ++ rest)) =
      scan lenient found (.string q) (Text.ofChars rest) := by
  obtain @⟨a, b, c, d, _, ha, hb, hc, hd, hn⟩ := h
  have hvalue : 16 * (16 * (16 * (16 * 0 + digitValue a) + digitValue b) + digitValue c) +
      digitValue d = n := by
    omega
  have hlast : step lenient (.hex p 3 (16 * (16 * (16 * 0 + digitValue a) + digitValue b) +
      digitValue c)) (.scalar d) = ([], some (.string q)) := by
    simp only [step, CodePoint.toChar?, hexValue?_of_isHex hd, Option.bind_eq_bind,
      Option.bind_some, hvalue, hq, if_pos]
  calc scan lenient found (.string p) (Text.ofChars ('\\' :: 'u' :: [a, b, c, d] ++ rest))
    _ = scan lenient found (.escape p) (Text.ofChars ('u' :: [a, b, c, d] ++ rest)) :=
      scan_of_step rfl _
    _ = scan lenient found (.hex p 0 0) (Text.ofChars ([a, b, c, d] ++ rest)) :=
      scan_of_step rfl _
    _ = scan lenient found (.hex p 1 _) (Text.ofChars ([b, c, d] ++ rest)) :=
      scan_of_step (step_digit ha p (by decide) _) _
    _ = scan lenient found (.hex p 2 _) (Text.ofChars ([c, d] ++ rest)) :=
      scan_of_step (step_digit hb p (by decide) _) _
    _ = scan lenient found (.hex p 3 _) (Text.ofChars ([d] ++ rest)) :=
      scan_of_step (step_digit hc p (by decide) _) _
    _ = scan lenient found (.string q) (Text.ofChars rest) := scan_of_step hlast _

/-- A character is no half of a surrogate pair. -/
theorem toNat_not_half (c : Char) : ¬(0xD800 ≤ c.toNat ∧ c.toNat < 0xE000) := by
  have hvalid := c.valid
  simp only [UInt32.isValidChar, Nat.isValidChar] at hvalid
  change ¬(0xD800 ≤ c.val.toNat ∧ c.val.toNat < 0xE000)
  omega

theorem pushNumber?_char (c : Char) :
    (⟨r, none⟩ : Partial).pushNumber? lenient c.toNat = some ⟨.scalar c :: r, none⟩ := by
  have hhalf := toNat_not_half c
  rw [Partial.pushNumber?, dif_neg (by omega), dif_neg (by omega), Char.ofNat_toNat]
  rfl

/-- A first half waits for the second, which makes the character whole. -/
theorem pushNumber?_halves (hc : 0x10000 ≤ c.toNat) :
    ∃ p : Partial,
      (⟨r, none⟩ : Partial).pushNumber? lenient (0xD800 + (c.toNat - 0x10000) / 0x400) = some p ∧
        p.pushNumber? lenient (0xDC00 + (c.toNat - 0x10000) % 0x400) =
          some ⟨.scalar c :: r, none⟩ := by
  have hmax : c.toNat < 0x110000 := by
    have hvalid := c.valid
    simp only [UInt32.isValidChar, Nat.isValidChar] at hvalid
    change c.val.toNat < 0x110000
    omega
  have hsum := Nat.div_add_mod (c.toNat - 0x10000) 0x400
  have hlow : (c.toNat - 0x10000) % 0x400 < 0x400 := Nat.mod_lt _ (by decide)
  refine ⟨⟨r, some ⟨(c.toNat - 0x10000) / 0x400, by omega⟩⟩, ?_, ?_⟩
  · rw [Partial.pushNumber?, dif_pos (by omega)]
    simp [Partial.settle?]
  · rw [Partial.pushNumber?, dif_neg (by omega), dif_pos (by omega)]
    have hwhole : 0x10000 + 0x400 * ((c.toNat - 0x10000) / 0x400) +
        (0xDC00 + (c.toNat - 0x10000) % 0x400 - 0xDC00) = c.toNat := by
      omega
    dsimp only
    rw [hwhole, Char.ofNat_toNat]

theorem simpleEscape?_of_mem {a : Char} (h : (a, c) ∈ shortEscapes) :
    a ≠ 'u' ∧ simpleEscape? a = some c := by
  have hall : ∀ x ∈ shortEscapes, x.1 ≠ 'u' ∧ simpleEscape? x.1 = some x.2 := by decide
  exact hall _ h

/-- The automaton goes over the encoding of a character. -/
theorem EncodesChar.scan_eq (h : EncodesChar e c) (rest : List Char) :
    scan lenient found (.string ⟨r, none⟩) (Text.ofChars (e ++ rest)) =
      scan lenient found (.string ⟨.scalar c :: r, none⟩) (Text.ofChars rest) := by
  cases h with
  | plain hcontrol hquote hbackslash =>
    refine scan_of_step ?_ _
    have hvalue : ¬(CodePoint.scalar c).value < 0x20 := Nat.not_lt.mpr hcontrol
    simp [step, hquote, hbackslash, hvalue, Partial.push?, Partial.settle?]
  | @short a _ h =>
    obtain ⟨hu, hescape⟩ := simpleEscape?_of_mem h
    have hopen : step lenient (.string ⟨r, none⟩) (.scalar '\\') =
        ([], some (.escape ⟨r, none⟩)) :=
      rfl
    refine (scan_of_step hopen _).trans (scan_of_step ?_ _)
    rw [step]
    · simp [hescape, Partial.push?, Partial.settle?]
    · simpa using hu
  | number h => exact scan_number h (pushNumber?_char c) rest
  | halves hc hhigh hlow =>
    obtain ⟨p, hp, hq⟩ := pushNumber?_halves hc
    rw [List.append_assoc, scan_number hhigh hp, scan_number hlow hq]

theorem Encodes.scan_eq (h : Encodes e s) (rest : List Char) :
    scan lenient found (.string ⟨r, none⟩) (Text.ofChars (e ++ rest)) =
      scan lenient found (.string ⟨(Text.ofChars s).reverse ++ r, none⟩) (Text.ofChars rest) := by
  induction h generalizing r with
  | nil => rfl
  | cons hc _ ih =>
    rw [List.append_assoc, hc.scan_eq, ih]
    simp [Text.ofChars]

/-- An encoding between quotation marks. -/
def quoted (e : List Char) : List Char := '"' :: e ++ ['"']

/-- A document that is an encoding of a string denotes the string. -/
theorem Encodes.read?_eq (h : Encodes e s) :
    read? lenient (Text.ofChars (quoted e)) = some (.text (Text.ofChars s)) := by
  have htokens : tokens lenient (Text.ofChars (quoted e)) =
      [.scalar (.text (Text.ofChars s))] := by
    refine (h.scan_eq (r := []) ['"']).trans ?_
    simp [scan, step, Text.ofChars, Partial.settle?]
  rw [read?, read, htokens]
  rfl

end Json

namespace Go

open Json (Encodes EncodesChar FourDigits quoted)

variable {c : Char} {e s ds : List Char} {n : Nat}

/-! ### Encodings as tokens -/

/-- The characters that do not stand for themselves in an interpreted string literal. -/
def specialMarks : List Char := ['"', '\n', '\x00', '\\']

theorem stringLength_cons (hc : c ∉ specialMarks) (cs : List Char) :
    stringLength (c :: cs) = (stringLength cs).map (· + 1) := by
  simp only [specialMarks, List.mem_cons, List.not_mem_nil, or_false, not_or] at hc
  obtain ⟨hquote, hbreak, hnul, hbackslash⟩ := hc
  rw [stringLength] <;> simp_all

theorem stringLength_append {cs : List Char} (h : ∀ c ∈ cs, c ∉ specialMarks) (rest : List Char) :
    stringLength (cs ++ rest) = (stringLength rest).map (· + cs.length) := by
  induction cs with
  | nil => simp
  | cons c cs ih =>
    obtain ⟨hc, hcs⟩ := List.forall_mem_cons.mp h
    rw [List.cons_append, stringLength_cons hc, ih hcs, Option.map_map]
    rfl

theorem notMem_specialMarks_of_isHex (h : isHex c = true) : c ∉ specialMarks := by
  have hmarks : ∀ d ∈ specialMarks, isHex d = false := by simp [specialMarks, isHex]
  exact fun hc => Bool.false_ne_true ((hmarks c hc).symm.trans h)

theorem beginsWith_fourDigits (h : FourDigits ds n) (rest : List Char) :
    beginsWith isHex 4 (ds ++ rest) = true := by
  rw [beginsWith, List.take_left' h.length_eq, h.length_eq, List.all_eq_true.mpr h.isHex]
  rfl

/-- An escape by a number stands in an interpreted string literal. -/
theorem stringLength_number (h : FourDigits ds n) (rest : List Char) :
    stringLength ('\\' :: 'u' :: ds ++ rest) = (stringLength rest).map (· + 6) := by
  have hdigits := stringLength_append (fun d hd => notMem_specialMarks_of_isHex (h.isHex d hd)) rest
  rw [h.length_eq] at hdigits
  rw [List.cons_append, List.cons_append, stringLength]
  · simp [beginsWith_fourDigits h rest, hdigits]
  · simp

theorem stringLength_encodesChar (h : EncodesChar e c) (rest : List Char) :
    stringLength (e ++ rest) = (stringLength rest).map (· + e.length) := by
  cases h with
  | plain hcontrol hquote hbackslash =>
    refine stringLength_cons ?_ rest
    have hcontrols : ∀ d ∈ ['\n', '\x00'], d.toNat < 0x20 := by simp
    simp only [specialMarks, List.mem_cons, List.not_mem_nil, or_false, not_or]
    refine ⟨hquote, fun h => ?_, fun h => ?_, hbackslash⟩ <;>
      exact absurd hcontrol (Nat.not_le.mpr (hcontrols c (by simp [h])))
  | @short a _ h =>
    have hletters : ∀ x ∈ Json.shortEscapes,
        x.1 ≠ '\x00' ∧ x.1 ≠ 'x' ∧ x.1 ≠ 'u' ∧ x.1 ≠ 'U' := by decide
    obtain ⟨hnul, hx, hu, hU⟩ := hletters _ h
    rw [List.cons_append, List.cons_append, stringLength]
    · simp_all
    · simpa using hnul
  | number h =>
    rw [stringLength_number h, List.length_cons, List.length_cons, h.length_eq]
  | halves hc hhigh hlow =>
    rw [List.append_assoc, stringLength_number hhigh, stringLength_number hlow, Option.map_map]
    simp only [List.length_append, List.length_cons, hhigh.length_eq, hlow.length_eq]
    rfl

/-- An encoding between quotation marks is one token, whatever follows. -/
theorem tokenLength?_quoted (h : Encodes e s) (rest : List Char) :
    tokenLength? (quoted e ++ rest) = some (.string, (quoted e).length) := by
  have hlength : stringLength (e ++ '"' :: rest) = some (e.length + 1) := by
    induction h with
    | nil => rfl
    | cons hc _ ih =>
      rw [List.append_assoc, stringLength_encodesChar hc, ih, Option.map_some, List.length_append]
      congr 1
      omega
  have hquoted : quoted e ++ rest = '"' :: (e ++ '"' :: rest) := by simp [quoted]
  rw [hquoted, tokenLength?, hlength]
  simp [quoted]

namespace Node

variable {n x : Node} {xs : List Node}

/-! ### Sums of literals -/

/-- Whether an expression is two operands with a plus sign between them, and perhaps comments. -/
def isSum (n : Node) : Bool :=
  n.kind == .binaryExpression && (n.child? .operator).any (·.hasText "+") &&
    (n.child? .left).isSome && (n.child? .right).isSome

/-- The operands of an expression, from left to right: those of its two sides if it is a sum, those
of what stands inside it if it is in parentheses or a wrapper, and itself otherwise. -/
inductive Joins : Node → List Node → Prop where
  | operand {n : Node} (hwrapper : n.isWrapper = false) (hsum : n.isSum = false) : Joins n [n]
  | wrapped {k : Kind} {cs : List (Role × Node)} {m : Node} {xs : List Node}
      (h : (branch k cs).isWrapper = true) (hfirst : (branch k cs).phrases.head? = some m)
      (hm : Joins m xs) : Joins (branch k cs) xs
  | sum {n a b : Node} {xs ys : List Node} (hsum : n.isSum = true)
      (hleft : n.child? .left = some a) (hright : n.child? .right = some b) (ha : Joins a xs)
      (hb : Joins b ys) : Joins n (xs ++ ys)

/-- A string literal. -/
def IsString (n : Node) : Prop :=
  ∃ k leading text, n = leaf k leading text ∧
    (k = .interpretedStringLiteral ∨ k = .rawStringLiteral)

theorem firstString?_eq (k : Kind) (cs : List (Role × Node)) :
    firstString? cs = (branch k cs).phrases.head?.bind stringValue? := by
  rw [phrases_branch]
  induction cs with
  | nil => rfl
  | cons c cs ih =>
    obtain ⟨r, n⟩ := c
    rw [firstString?, List.map_cons, List.filter_cons]
    split
    · rfl
    · exact ih

theorem stringIn?_eq (r : Role) (k : Kind) (cs : List (Role × Node)) :
    stringIn? r cs = ((branch k cs).child? r).bind stringValue? := by
  rw [child?, children, parts]
  induction cs with
  | nil => rfl
  | cons c cs ih =>
    obtain ⟨r', n⟩ := c
    rw [stringIn?, List.filter_cons]
    split
    · rfl
    · exact ih

theorem stringValue?_branch (k : Kind) (cs : List (Role × Node)) :
    (branch k cs).stringValue? = if (branch k cs).isWrapper then
      (branch k cs).phrases.head?.bind stringValue?
    else if (branch k cs).isSum then
      (((branch k cs).child? .left).bind stringValue?).bind fun s =>
        (((branch k cs).child? .right).bind stringValue?).map (s ++ ·)
    else none := by
  rw [stringValue?, ← firstString?_eq, isSum]
  refine if_congr Iff.rfl rfl ?_
  rw [stringIn?_eq .left k, stringIn?_eq .right k]
  change (if (k == .binaryExpression && _) = true then _ else _) =
    if (k == .binaryExpression && _ && _ && _) = true then _ else _
  cases k == .binaryExpression && ((branch k cs).child? .operator).any (·.hasText "+") with
  | false => rfl
  | true =>
    cases (branch k cs).child? .left with
    | none => rfl
    | some a =>
      cases (branch k cs).child? .right with
      | none => simp
      | some b =>
        simp only [Option.bind_some]
        cases a.stringValue? <;> cases b.stringValue? <;> rfl

theorem stringValue?_wrapper {k : Kind} {cs : List (Role × Node)}
    (h : (branch k cs).isWrapper = true) :
    (branch k cs).stringValue? = (branch k cs).phrases.head?.bind stringValue? := by
  rw [stringValue?_branch, if_pos h]

theorem isWrapper_of_isSum (h : n.isSum = true) : n.isWrapper = false := by
  simp only [isSum, Bool.and_eq_true, beq_iff_eq] at h
  rw [isWrapper, h.1.1.1]
  rfl

theorem stringValue?_sum {a b : Node} (hsum : n.isSum = true) (hleft : n.child? .left = some a)
    (hright : n.child? .right = some b) :
    n.stringValue? = a.stringValue?.bind fun s => b.stringValue?.map (s ++ ·) := by
  cases n with
  | leaf => exact nomatch hleft
  | branch k cs =>
    rw [stringValue?_branch, if_neg (Bool.eq_false_iff.mp (isWrapper_of_isSum hsum)), if_pos hsum,
      hleft, hright]
    rfl

/-- What is neither in parentheses nor a sum spells a string only if it is a literal. -/
theorem stringValue?_operand (hwrapper : n.isWrapper = false) (hsum : n.isSum = false)
    (h : ¬n.IsString) : n.stringValue? = none := by
  cases n with
  | leaf k leading text =>
    have hkind : k ≠ .interpretedStringLiteral ∧ k ≠ .rawStringLiteral :=
      not_or.mp fun hk => h ⟨k, leading, text, rfl, hk⟩
    simp [stringValue?, hkind]
  | branch k cs =>
    rw [stringValue?_branch, if_neg (Bool.eq_false_iff.mp hwrapper),
      if_neg (Bool.eq_false_iff.mp hsum)]

theorem IsString.exists_value (h : n.IsString) : ∃ t, n.stringValue? = some t := by
  obtain ⟨k, leading, text, rfl, rfl | rfl⟩ := h
  · exact ⟨_, rfl⟩
  · exact ⟨_, rfl⟩

/-- An operand is neither in parentheses nor a sum. -/
theorem Joins.operand_of_mem (h : Joins n xs) (hx : x ∈ xs) :
    x.isWrapper = false ∧ x.isSum = false := by
  induction h with
  | operand hwrapper hsum => exact List.mem_singleton.mp hx ▸ ⟨hwrapper, hsum⟩
  | wrapped _ _ _ ih => exact ih hx
  | sum _ _ _ _ _ iha ihb => exact (List.mem_append.mp hx).elim iha ihb

/-- An expression spells what its operands spell, put together from left to right. -/
theorem Joins.stringValue?_eq (h : Joins n xs) :
    n.stringValue? = (xs.mapM stringValue?).map List.flatten := by
  induction h with
  | @operand n _ _ =>
    rw [List.mapM_cons, List.mapM_nil]
    cases n.stringValue? with
    | none => rfl
    | some t => simp
  | wrapped h hfirst _ ih => rw [stringValue?_wrapper h, hfirst, Option.bind_some, ih]
  | @sum n a b xs ys hsum hleft hright _ _ iha ihb =>
    rw [stringValue?_sum hsum hleft hright, iha, ihb, List.mapM_append]
    cases xs.mapM stringValue? <;> cases ys.mapM stringValue? <;> simp

theorem mapM_stringValue? {values : List Text} (h : xs.map stringValue? = values.map some) :
    xs.mapM stringValue? = some values := by
  induction xs generalizing values with
  | nil =>
    rw [List.map_eq_nil_iff.mp h.symm]
    rfl
  | cons x xs ih =>
    obtain ⟨t, values, rfl, ht, hvalues⟩ := List.map_eq_cons_iff.mp h.symm
    rw [List.mapM_cons, ← ht, ih hvalues.symm]
    rfl

/-- Literals spell strings. -/
theorem exists_values (h : ∀ x ∈ xs, x.IsString) :
    ∃ values : List Text, xs.map stringValue? = values.map some := by
  induction xs with
  | nil => exact ⟨[], rfl⟩
  | cons x xs ih =>
    obtain ⟨hx, hxs⟩ := List.forall_mem_cons.mp h
    obtain ⟨t, ht⟩ := hx.exists_value
    obtain ⟨values, hvalues⟩ := ih hxs
    exact ⟨t :: values, by rw [List.map_cons, List.map_cons, ht, hvalues]⟩

/-- An operand that is no literal keeps the whole from being a string. -/
theorem mapM_stringValue?_eq_none (hx : x ∈ xs) (h : x.stringValue? = none) :
    xs.mapM stringValue? = none := by
  induction xs with
  | nil => exact absurd hx List.not_mem_nil
  | cons y xs ih =>
    rw [List.mapM_cons]
    rcases List.mem_cons.mp hx with rfl | hx
    · rw [h]
      rfl
    · rw [ih hx]
      cases y.stringValue? <;> rfl

/-- An encoding between quotation marks is read as a literal that spells the string. -/
theorem stringValue?_quoted {e s : List Char} (h : Encodes e s) (leading : List Char) :
    (leaf .interpretedStringLiteral leading (quoted e)).stringValue? = some (Text.ofChars s) := by
  have hread : Json.read? Json.lenient (leaf .interpretedStringLiteral leading (quoted e)).text =
      some (.text (Text.ofChars s)) := h.read?_eq
  change some (interpreted _) = _
  rw [interpreted, hread]

theorem stringValue?_raw (body leading : List Char) :
    (leaf .rawStringLiteral leading ('\x60' :: body ++ ['\x60'])).stringValue? =
      some (Text.ofChars body) := by
  change some (Text.ofChars (body ++ ['\x60']).dropLast) = _
  rw [List.dropLast_concat]

/-- An expression made of string literals with plus signs and parentheses spells the strings that
the literals spell, put together from left to right, and nothing if one of its operands is no string
literal. An encoding of a string between quotation marks is one token, whatever follows it, and the
operand that is made of the token spells the string. -/
theorem stringValue?_faithful :
    (∀ n xs, Joins n xs → (∀ x ∈ xs, x.IsString) → ∃ values : List Text,
      xs.map stringValue? = values.map some ∧ n.stringValue? = some values.flatten) ∧
    (∀ n xs, Joins n xs → (∃ x ∈ xs, ¬x.IsString) → n.stringValue? = none) ∧
    (∀ body leading, (leaf .rawStringLiteral leading ('\x60' :: body ++ ['\x60'])).stringValue? =
      some (Text.ofChars body)) ∧
    ∀ e s, Encodes e s →
      (∀ rest, tokenLength? (quoted e ++ rest) = some (.string, (quoted e).length)) ∧
      ∀ (g : Grammar) (leading : List Char) (afterLineFeed : Bool) (ts : List Token), ∃ n,
        (operandNode g).run (⟨.string, leading, afterLineFeed, quoted e⟩ :: ts) = some (n, ts) ∧
          n.stringValue? = some (Text.ofChars s) := by
  refine ⟨fun n xs h hxs => ?_, fun n xs h ⟨x, hx, hother⟩ => ?_,
    fun body leading => stringValue?_raw body leading,
    fun e s h => ⟨tokenLength?_quoted h, fun g leading afterLineFeed ts =>
      ⟨_, rfl, stringValue?_quoted h leading⟩⟩⟩
  · obtain ⟨values, hvalues⟩ := exists_values hxs
    refine ⟨values, hvalues, ?_⟩
    rw [h.stringValue?_eq, mapM_stringValue? hvalues, Option.map_some]
  · obtain ⟨hwrapper, hsum⟩ := h.operand_of_mem hx
    rw [h.stringValue?_eq, mapM_stringValue?_eq_none hx (stringValue?_operand hwrapper hsum hother)]
    rfl

/-- An encoding of a character by a pair of surrogates. -/
def encodedPair : List Char := ['\\', 'u', 'd', '8', '3', 'd', '\\', 'u', 'D', 'E', '0', '0']

/-- A sum in parentheses, one of whose operands is commented, and whose last operand is an
encoding. -/
def pairInSum : Node :=
  branch .binaryExpression [
    (.left, branch .parenthesizedExpression [(.part, leaf .mark [] ['(']),
      (.part, branch .binaryExpression [(.left, leaf .interpretedStringLiteral [] (quoted ['a'])),
        (.part, leaf .comment [' '] "/* a */".toList), (.operator, leaf .mark [' '] ['+']),
        (.right, leaf .rawStringLiteral [' '] "\x60b\x60".toList)]),
      (.part, leaf .mark [] [')'])]),
    (.operator, leaf .mark [' '] ['+']),
    (.right, leaf .interpretedStringLiteral [' '] (quoted encodedPair))]

/-- The operand behind a plus sign need not be a literal. -/
def nameInSum : Node :=
  branch .binaryExpression [(.left, pairInSum), (.operator, leaf .mark [] ['+']),
    (.right, leaf .identifier [] ['x'])]

theorem stringValue?_faithful_of_pair :
    pairInSum.stringValue? = some ("ab😀" : Text) ∧ nameInSum.stringValue? = none ∧
      tokenLength? (quoted encodedPair) = some (.string, 14) := by
  have hhigh : FourDigits ['d', '8', '3', 'd'] (0xD800 + ('😀'.toNat - 0x10000) / 0x400) :=
    .digits rfl rfl rfl rfl (by decide)
  have hlow : FourDigits ['D', 'E', '0', '0'] (0xDC00 + ('😀'.toNat - 0x10000) % 0x400) :=
    .digits rfl rfl rfl rfl (by decide)
  have hpair : Encodes encodedPair ['😀'] := .cons (.halves (by decide) hhigh hlow) .nil
  have hjoins : Joins pairInSum [leaf .interpretedStringLiteral [] (quoted ['a']),
      leaf .rawStringLiteral [' '] "\x60b\x60".toList,
      leaf .interpretedStringLiteral [' '] (quoted encodedPair)] :=
    .sum rfl rfl rfl
      (.wrapped rfl rfl (.sum rfl rfl rfl (.operand rfl rfl) (.operand rfl rfl)))
      (.operand rfl rfl)
  have hname : Joins nameInSum _ := .sum rfl rfl rfl hjoins (.operand rfl rfl)
  obtain ⟨hstrings, hother, -, hencoded⟩ := stringValue?_faithful
  obtain ⟨values, hvalues, hsum⟩ := hstrings _ _ hjoins (by simp [IsString])
  have hread : values.map some = [some ("a" : Text), some ("b" : Text), some ("😀" : Text)] := by
    rw [← hvalues]
    decide +kernel
  refine ⟨?_, hother _ _ hname ⟨leaf .identifier [] ['x'], by simp, by simp [IsString]⟩,
    (hencoded _ _ hpair).1 []⟩
  obtain rfl : values = [("a" : Text), "b", "😀"] :=
    List.map_injective_iff.mpr (Option.some_injective _) hread
  exact hsum

end Node

end Go

end ProviderCatalog
