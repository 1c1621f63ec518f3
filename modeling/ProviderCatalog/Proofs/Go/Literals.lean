import ProviderCatalog.Go.Value
import ProviderCatalog.Proofs.Text.Pieces
import Mathlib.Data.List.Basic

/-!
# Literals and their texts

An expression can stand in parentheses and wrappers, any number of them, and behind one address
operator, whose operand can stand in parentheses and wrappers again. What is left denotes the
expression, and the expression is a literal if that is one.

The text of a part of a tree occurs in the text of the tree, and so does the text of what a value
denotes in the text of the value. A composite literal is spelled as its type and its braces, with
blanks and comments between them.

## Main definitions

* `Node.Inside`: an expression stands inside parentheses and wrappers.
* `Node.Denotes`: the expression that a value denotes.
* `Node.IsLiteral`: a value is a literal with the given braces.
* `Node.bare`: a tree without what precedes its first token.
* `Node.literalParts?`: the type and the braces of a literal that is spelled without comments
  between them.

## Main results

* `Node.unwrap?_eq_some_iff`, `Node.unwrap?_bind_dereference?_eq_some_iff`: what is inside, and what
  is denoted.
* `Node.literalBody?_eq_some_iff`: the braces of a literal.
* `Node.fullText_eq`: the text of a tree with what precedes it.
* `Node.Denotes.text_infix`: the text of what a value denotes.
* `Node.infix_text_iff`: where a text occurs in a literal.
-/

namespace ProviderCatalog.Go.Node

variable {n v x c b : Node}

/-! ### Phrases -/

theorem mem_phrases : x ∈ n.phrases ↔ x ∈ n.namedChildren ∧ x.isComment = false := by
  rw [phrases, List.mem_filter, Bool.not_eq_true']

/-- The phrases among the parts of a phrase. -/
theorem phrases_branch (k : Kind) (cs : List (Role × Node)) :
    (branch k cs).phrases = (cs.map (·.2)).filter fun n => n.isNamed && !n.isComment := by
  rw [phrases, namedChildren, List.filter_filter]
  exact List.filter_congr fun n _ => Bool.and_comm _ _

/-- A comment is no element with a key. -/
theorem keyedElements_eq (n : Node) : n.keyedElements = n.phrases.filterMap Node.keyAndValue? := by
  rw [keyedElements, phrases, List.filterMap_filter]
  refine List.filterMap_congr fun c _ => ?_
  cases hc : c.isComment with
  | false => rfl
  | true =>
    rw [keyAndValue?, beq_iff_eq.mp hc]
    rfl

theorem listElements_eq (n : Node) :
    n.listElements = (n.phrases.filter (·.kind != .keyedElement)).filterMap Node.unwrap? := by
  rw [listElements, phrases, List.filter_filter]

/-! ### Wrappers -/

/-- An expression stands inside a node: it is the node, unless that is a wrapper, or it stands
inside the first phrase of the wrapper. -/
inductive Inside : Node → Node → Prop where
  | token (k : Kind) (leading text : List Char) :
      Inside (leaf k leading text) (leaf k leading text)
  | phrase {k : Kind} {cs : List (Role × Node)} (h : (branch k cs).isWrapper = false) :
      Inside (branch k cs) (branch k cs)
  | wrapped {k : Kind} {cs : List (Role × Node)} {m x : Node} (h : (branch k cs).isWrapper = true)
      (hfirst : (branch k cs).phrases.head? = some m) (hx : Inside m x) :
      Inside (branch k cs) x

theorem unwrapFirst?_eq (k : Kind) (cs : List (Role × Node)) :
    unwrapFirst? cs = (branch k cs).phrases.head?.bind unwrap? := by
  rw [phrases_branch]
  induction cs with
  | nil => rfl
  | cons c cs ih =>
    obtain ⟨r, n⟩ := c
    rw [unwrapFirst?, List.map_cons, List.filter_cons]
    split
    · rfl
    · exact ih

theorem unwrap?_branch (k : Kind) (cs : List (Role × Node)) :
    (branch k cs).unwrap? = if (branch k cs).isWrapper then
      (branch k cs).phrases.head?.bind unwrap? else some (branch k cs) := by
  rw [unwrap?, unwrapFirst?_eq k]
  rfl

theorem size_le_totalSize {ns : List Node} (h : x ∈ ns) : x.size ≤ totalSize ns := by
  induction ns with
  | nil => exact absurd h List.not_mem_nil
  | cons m ns ih =>
    rw [totalSize]
    rcases List.mem_cons.mp h with rfl | h
    · exact Nat.le_add_right _ _
    · exact Nat.le_trans (ih h) (Nat.le_add_left _ _)

theorem size_lt_of_mem_namedChildren (h : x ∈ n.namedChildren) : x.size < n.size :=
  Nat.lt_of_le_of_lt (size_le_totalSize h) (totalSize_namedChildren_lt n)

/-- What holds of a node if it holds of its phrases holds of all nodes. -/
@[elab_as_elim]
theorem induction_namedChildren {P : Node → Prop}
    (node : ∀ n, (∀ c ∈ n.namedChildren, P c) → P n) (n : Node) : P n := by
  induction hn : n.size using Nat.strongRecOn generalizing n with
  | ind size ih => exact node n fun c hc => ih c.size (hn ▸ size_lt_of_mem_namedChildren hc) c rfl

theorem Inside.unwrap?_eq (h : Inside n x) : n.unwrap? = some x := by
  induction h with
  | token k leading text => rfl
  | phrase h => rw [unwrap?_branch, h]; rfl
  | wrapped h hfirst _ ih => rw [unwrap?_branch, h, hfirst]; exact ih

theorem unwrap?_eq_some_iff : n.unwrap? = some x ↔ Inside n x := by
  refine ⟨fun h => ?_, Inside.unwrap?_eq⟩
  induction n using induction_namedChildren with
  | node n ih =>
    cases n with
    | leaf k leading text =>
      cases h
      exact .token k leading text
    | branch k cs =>
      rw [unwrap?_branch] at h
      split at h
      · rename_i hwrapper
        obtain ⟨m, hm, hx⟩ := Option.bind_eq_some_iff.mp h
        exact .wrapped hwrapper hm (ih m (mem_phrases.mp (List.mem_of_head? hm)).1 hx)
      · rename_i hwrapper
        cases h
        exact .phrase (Bool.eq_false_iff.mpr hwrapper)

/-! ### Address operators -/

/-- The expression that a value denotes: the one inside it, or, if that takes an address, the one
inside its operand. -/
inductive Denotes : Node → Node → Prop where
  | plain {v c : Node} (h : Inside v c) (hc : c.kind ≠ .unaryExpression) : Denotes v c
  | addressed {v u op x c : Node} (h : Inside v u) (hu : u.kind = .unaryExpression)
      (hop : u.child? .operator = some op) (haddress : op.hasText "&" = true)
      (hoperand : u.child? .operand = some x) (hc : Inside x c) : Denotes v c

theorem unwrap?_bind_dereference?_eq_some_iff :
    v.unwrap?.bind dereference? = some c ↔ Denotes v c := by
  rw [Option.bind_eq_some_iff]
  constructor
  · rintro ⟨u, hu, h⟩
    rw [unwrap?_eq_some_iff] at hu
    rw [dereference?] at h
    split at h
    · rename_i hkind
      split at h
      · rename_i hop
        obtain ⟨op, hop, haddress⟩ := (Option.any_eq_true _ _).mp hop
        obtain ⟨x, hx, hc⟩ := Option.bind_eq_some_iff.mp h
        exact .addressed hu (beq_iff_eq.mp hkind) hop haddress hx (unwrap?_eq_some_iff.mp hc)
      · exact nomatch h
    · rename_i hkind
      cases h
      exact .plain hu fun h => hkind (beq_iff_eq.mpr h)
  · rintro (⟨h, hc⟩ | ⟨h, hu, hop, haddress, hoperand, hc⟩)
    · exact ⟨c, h.unwrap?_eq, by simp [dereference?, hc]⟩
    · exact ⟨_, h.unwrap?_eq, by simp [dereference?, hu, hop, haddress, hoperand, hc.unwrap?_eq]⟩

theorem denotes_unique {c' : Node} (h : Denotes v c) (h' : Denotes v c') : c = c' :=
  Option.some.inj ((unwrap?_bind_dereference?_eq_some_iff.mpr h).symm.trans
    (unwrap?_bind_dereference?_eq_some_iff.mpr h'))

/-! ### Braces -/

/-- A composite literal has the braces that are its body; braces without a type are their own. -/
inductive HasBraces : Node → Node → Prop where
  | typed {c b : Node} (h : c.kind = .compositeLiteral) (hb : c.child? .body = some b) :
      HasBraces c b
  | untyped {b : Node} (h : b.kind = .literalValue) : HasBraces b b

theorem bracesOf?_eq_some_iff : c.bracesOf? = some b ↔ HasBraces c b := by
  rw [bracesOf?]
  constructor
  · intro h
    split at h
    · rename_i hc
      exact .typed (beq_iff_eq.mp hc) h
    · split at h
      · rename_i hc
        cases h
        exact .untyped (beq_iff_eq.mp hc)
      · exact nomatch h
  · rintro (⟨h, hb⟩ | h)
    · simpa [h] using hb
    · simp [h]

/-- A value is a literal with the given braces, perhaps in parentheses or behind an address
operator. -/
def IsLiteral (v b : Node) : Prop :=
  ∃ c, Denotes v c ∧ HasBraces c b

theorem literalBody?_eq_some_iff : v.literalBody? = some b ↔ IsLiteral v b := by
  rw [literalBody?, Option.bind_eq_some_iff]
  simp only [unwrap?_bind_dereference?_eq_some_iff, bracesOf?_eq_some_iff, IsLiteral]

/-- A name is no literal. -/
theorem Inside.literalBody?_eq_none (h : Inside v x) (hkind : x.kind = .identifier) :
    v.literalBody? = none := by
  simp [literalBody?, h.unwrap?_eq, dereference?, bracesOf?, hkind]

end ProviderCatalog.Go.Node

namespace ProviderCatalog.Go.Node

variable {n v c t b : Node} {r : Role} {cs : List (Role × Node)} {m : Text}

/-! ### Parts -/

theorem fullText_eq : (n : Node) → n.fullText = n.lead ++ n.chars
  | leaf _ _ _ => rfl
  | branch _ [] => rfl
  | branch _ ((_, n) :: cs) => by
    rw [fullText, fullTextOf, lead, chars, charsOf, fullText_eq n, List.append_assoc]

theorem fullText_infix_fullTextOf (h : (r, n) ∈ cs) : n.fullText <:+: fullTextOf cs := by
  induction cs with
  | nil => exact absurd h List.not_mem_nil
  | cons d cs ih =>
    rw [fullTextOf]
    rcases List.mem_cons.mp h with rfl | h
    · exact (List.prefix_append _ _).isInfix
    · exact (ih h).trans (List.suffix_append _ _).isInfix

theorem chars_infix_charsOf (h : (r, n) ∈ cs) : n.chars <:+: charsOf cs := by
  cases cs with
  | nil => exact absurd h List.not_mem_nil
  | cons d cs =>
    rw [charsOf]
    rcases List.mem_cons.mp h with rfl | h
    · exact (List.prefix_append _ _).isInfix
    · have hfull := (fullText_infix_fullTextOf h).trans (List.suffix_append d.2.chars _).isInfix
      rw [fullText_eq] at hfull
      exact (List.suffix_append _ _).isInfix.trans hfull

theorem chars_infix_of_mem_parts (h : (r, n) ∈ v.parts) : n.chars <:+: v.chars := by
  cases v with
  | leaf => exact absurd h List.not_mem_nil
  | branch k cs => exact chars_infix_charsOf h

theorem chars_infix_of_child? (h : v.child? r = some n) : n.chars <:+: v.chars := by
  obtain ⟨⟨r', n⟩, hpart, rfl⟩ := List.mem_map.mp (List.mem_of_head? h)
  exact chars_infix_of_mem_parts (List.mem_filter.mp hpart).1

theorem Inside.chars_infix (h : Inside v c) : c.chars <:+: v.chars := by
  induction h with
  | token => exact List.infix_rfl
  | phrase => exact List.infix_rfl
  | wrapped _ hfirst _ ih =>
    have hnamed := (List.mem_filter.mp (mem_phrases.mp (List.mem_of_head? hfirst)).1).1
    obtain ⟨⟨r, m⟩, hpart, rfl⟩ := List.mem_map.mp hnamed
    exact ih.trans (chars_infix_of_mem_parts hpart)

theorem text_infix_text (h : n.chars <:+: v.chars) : n.text <:+: v.text := h.map _

/-- What a value denotes is spelled in the value. -/
theorem Denotes.text_infix (h : Denotes v c) : c.text <:+: v.text := by
  cases h with
  | plain hin _ => exact text_infix_text hin.chars_infix
  | addressed hin _ _ _ hoperand hc =>
    exact text_infix_text
      (hc.chars_infix.trans ((chars_infix_of_child? hoperand).trans hin.chars_infix))

/-- A tree without what precedes its first token. -/
def bare : Node → Node
  | leaf k _ text => leaf k [] text
  | branch k [] => branch k []
  | branch k ((r, n) :: cs) => branch k ((r, bare n) :: cs)

@[simp] theorem kind_bare (n : Node) : n.bare.kind = n.kind := by
  fun_cases bare n <;> rfl

@[simp] theorem isNamed_bare (n : Node) : n.bare.isNamed = n.isNamed := by
  rw [isNamed, isNamed, kind_bare]

@[simp] theorem isComment_bare (n : Node) : n.bare.isComment = n.isComment := by
  rw [isComment, isComment, kind_bare]

@[simp] theorem chars_bare (n : Node) : n.bare.chars = n.chars := by
  fun_induction bare n with
  | case1 => rfl
  | case2 => rfl
  | case3 k r n cs ih => rw [chars, chars, charsOf, charsOf, ih]

/-- What precedes an expression is no part of what is inside it. -/
theorem map_text_unwrap?_bare (n : Node) : n.bare.unwrap?.map text = n.unwrap?.map text := by
  fun_induction bare n with
  | case1 => rfl
  | case2 => rfl
  | case3 k r n cs ih =>
    rw [unwrap?, unwrap?, unwrapFirst?, unwrapFirst?, isNamed_bare, isComment_bare]
    split
    · split
      · exact ih
      · rfl
    · simp [text, chars, charsOf]

/-! ### Literals -/

/-- The type and the braces of a composite literal, if only blanks can stand between them. -/
def typeAndBraces? : Node → Option (Node × Node)
  | branch .compositeLiteral [(.type, t), (.body, b)] =>
    if b.lead.all isSeparator && b.chars.head? == some '\x7b' then some (t, b) else none
  | _ => none

/-- The type and the braces of a composite literal, perhaps behind an address operator, if only
blanks can stand between them. -/
def literalParts? : Node → Option (Node × Node)
  | branch .unaryExpression [(.operator, op), (.operand, c)] =>
    if op.hasText "&" && c.lead.all isSeparator then c.typeAndBraces? else none
  | v => v.typeAndBraces?

theorem typeAndBraces?_eq_some_iff :
    c.typeAndBraces? = some (t, b) ↔ c = branch .compositeLiteral [(.type, t), (.body, b)] ∧
      (∀ x ∈ b.lead, isSeparator x = true) ∧ ∃ inner, b.chars = '\x7b' :: inner := by
  constructor
  · intro h
    unfold typeAndBraces? at h
    split at h
    · split at h
      · rename_i hbraces
        cases h
        obtain ⟨hlead, hopen⟩ := Bool.and_eq_true_iff.mp hbraces
        obtain ⟨inner, hinner⟩ := List.head?_eq_some_iff.mp (beq_iff_eq.mp hopen)
        exact ⟨rfl, List.all_eq_true.mp hlead, inner, hinner⟩
      · exact nomatch h
    · exact nomatch h
  · rintro ⟨rfl, hlead, inner, hinner⟩
    simp [typeAndBraces?, hinner, List.all_eq_true.mpr hlead]

theorem literalParts?_eq_some_iff :
    v.literalParts? = some (t, b) ↔ v.typeAndBraces? = some (t, b) ∨
      ∃ op c, v = branch .unaryExpression [(.operator, op), (.operand, c)] ∧
        op.hasText "&" = true ∧ (∀ x ∈ c.lead, isSeparator x = true) ∧
        c.typeAndBraces? = some (t, b) := by
  constructor
  · intro h
    unfold literalParts? at h
    split at h
    · split at h
      · rename_i hop
        obtain ⟨hop, hlead⟩ := Bool.and_eq_true_iff.mp hop
        exact .inr ⟨_, _, rfl, hop, List.all_eq_true.mp hlead, h⟩
      · exact nomatch h
    · exact .inl h
  · rintro (h | ⟨op, c, rfl, hop, hlead, h⟩)
    · obtain ⟨rfl, -⟩ := typeAndBraces?_eq_some_iff.mp h
      exact h
    · simp [literalParts?, hop, List.all_eq_true.mpr hlead, h]

/-- A literal that is spelled is the composite literal that it denotes. -/
theorem denotes_of_literalParts? (h : v.literalParts? = some (t, b)) :
    ∃ c, Denotes v c ∧ c.kind = .compositeLiteral ∧ c.child? .type = some t := by
  rcases literalParts?_eq_some_iff.mp h with h | ⟨op, c, rfl, hop, -, h⟩
  · obtain ⟨rfl, -⟩ := typeAndBraces?_eq_some_iff.mp h
    exact ⟨_, .plain (.phrase rfl) nofun, rfl, rfl⟩
  · obtain ⟨rfl, -⟩ := typeAndBraces?_eq_some_iff.mp h
    exact ⟨_, .addressed (.phrase rfl) rfl rfl hop rfl (.phrase rfl), rfl, rfl⟩

/-- A text without blanks, braces and address operators occurs in a literal if it occurs in its type
or in its braces. -/
theorem infix_text_iff (h : v.literalParts? = some (t, b)) (hm : m ≠ [])
    (hblank : ∀ x, isSeparator x = true → .scalar x ∉ m) (hopen : .scalar '\x7b' ∉ m)
    (haddress : .scalar '&' ∉ m) : m <:+: v.text ↔ m <:+: t.text ∨ m <:+: b.text := by
  have hblanks {ls : List Char} (hls : ∀ x ∈ ls, isSeparator x = true) :
      ∀ x ∈ Text.ofChars ls, x ∉ m := by
    intro x hx
    obtain ⟨y, hy, rfl⟩ := List.mem_map.mp hx
    exact hblank y (hls y hy)
  have htyped {c : Node} (h : c.typeAndBraces? = some (t, b)) :
      m <:+: c.text ↔ m <:+: t.text ∨ m <:+: b.text := by
    obtain ⟨rfl, hlead, inner, hinner⟩ := typeAndBraces?_eq_some_iff.mp h
    have hbraces : b.text = [] ++ .scalar '\x7b' :: Text.ofChars inner := by
      rw [text, hinner]
      rfl
    have htext : text (branch .compositeLiteral [(.type, t), (.body, b)]) = t.text ++
        ((Text.ofChars b.lead ++ [.scalar '\x7b']) ++ Text.ofChars inner) := by
      simp [text, chars, charsOf, fullTextOf, fullText_eq, hinner, Text.ofChars]
    rw [hbraces, htext, Text.infix_append_cons_iff hm hopen, List.infix_nil, or_iff_right hm,
      Text.infix_append_iff hm (by simp)]
    exact List.forall_mem_append.mpr ⟨hblanks hlead, by simpa using hopen⟩
  rcases literalParts?_eq_some_iff.mp h with h | ⟨op, c, rfl, hop, hlead, h⟩
  · exact htyped h
  · have hchars : op.chars = ['&'] := beq_iff_eq.mp hop
    have htext : text (branch .unaryExpression [(.operator, op), (.operand, c)]) =
        [] ++ ((.scalar '&' :: Text.ofChars c.lead) ++ c.text) := by
      simp [text, chars, charsOf, fullTextOf, fullText_eq, hchars, Text.ofChars]
    rw [htext, Text.infix_append_iff hm (List.cons_ne_nil _ _), List.infix_nil, or_iff_right hm]
    · exact htyped h
    · exact List.forall_mem_cons.mpr ⟨haddress, hblanks hlead⟩

end ProviderCatalog.Go.Node
