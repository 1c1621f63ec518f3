import ProviderCatalog.Proofs.Go.Alike
import ProviderCatalog.Proofs.Go.Returning
import Mathlib.Data.List.Forall2

/-!
# What is read off trees that are alike

Strings, integers, names and composite literals are read off a tree without looking at what precedes
its tokens, and the text of a tree is read only where it is a token, a type or a key. Comments are
passed over wherever the parts of a phrase are gone through, and a comment plays no role by which a
part is found. So the same is read off trees that are alike, and the parts that are found in them
are alike again.

## Main definitions

* `Node.AlikePart`: parts of a phrase that are alike.
* `Node.Literal.Alike`: literals that are alike.

## Main results

* `Node.Alike.phrases`, `Node.Alike.child?`, `Node.Alike.unwrap?`, `Node.Alike.walk`: the parts of
  trees that are alike.
* `Node.Alike.stringValue?`, `Node.Alike.intValue?`, `Node.Alike.isTrue`, `Node.Alike.callName?`:
  plain values.
* `Node.Alike.keyedElements`, `Node.Alike.listElements`, `Node.Alike.fieldValue?`: composite
  literals.
* `Node.Alike.returnedLiteral?`: the literal that a function returns.
-/

namespace ProviderCatalog

/-! ### Results that correspond -/

section Related

variable {α β γ δ : Type} {R : α → β → Prop} {S : γ → δ → Prop} {x : Option α} {y : Option β}

theorem rel_filter {p : α → Bool} {q : β → Bool} {xs : List α} {ys : List β}
    (h : List.Forall₂ R xs ys) (hpq : ∀ a b, R a b → p a = q b) :
    List.Forall₂ R (xs.filter p) (ys.filter q) :=
  List.rel_filter (fun a b hab => iff_of_eq (congrArg (· = true) (hpq a b hab))) h

theorem rel_head? {xs : List α} {ys : List β} (h : List.Forall₂ R xs ys) :
    Option.Rel R xs.head? ys.head? := by
  cases h with
  | nil => exact .none
  | cons h _ => exact .some h

theorem rel_bind {f : α → Option γ} {g : β → Option δ} (h : Option.Rel R x y)
    (hfg : ∀ a b, R a b → Option.Rel S (f a) (g b)) : Option.Rel S (x.bind f) (y.bind g) := by
  cases h with
  | none => exact .none
  | some h => exact hfg _ _ h

theorem rel_map {f : α → γ} {g : β → δ} (h : Option.Rel R x y)
    (hfg : ∀ a b, R a b → S (f a) (g b)) : Option.Rel S (x.map f) (y.map g) := by
  cases h with
  | none => exact .none
  | some h => exact .some (hfg _ _ h)

theorem rel_imp {R' : α → β → Prop} (h : Option.Rel R x y) (himp : ∀ a b, R a b → R' a b) :
    Option.Rel R' x y := by
  cases h with
  | none => exact .none
  | some h => exact .some (himp _ _ h)

theorem rel_and_of_map_eq {f : α → γ} {g : β → γ} (h : Option.Rel R x y) (hfg : x.map f = y.map g) :
    Option.Rel (fun a b => R a b ∧ f a = g b) x y := by
  cases h with
  | none => exact .none
  | some h => exact .some ⟨h, Option.some.inj hfg⟩

theorem rel_find? {p : α → Bool} {q : β → Bool} {xs : List α} {ys : List β}
    (h : List.Forall₂ R xs ys) (hpq : ∀ a b, R a b → p a = q b) :
    Option.Rel R (xs.find? p) (ys.find? q) := by
  rw [← List.head?_filter, ← List.head?_filter]
  exact rel_head? (rel_filter h hpq)

theorem rel_findSome? {f : α → Option γ} {g : β → Option δ} {xs : List α} {ys : List β}
    (h : List.Forall₂ R xs ys) (hfg : ∀ a b, R a b → Option.Rel S (f a) (g b)) :
    Option.Rel S (xs.findSome? f) (ys.findSome? g) := by
  rw [← List.head?_filterMap, ← List.head?_filterMap]
  exact rel_head? (List.rel_filterMap (fun a b hab => hfg a b hab) h)

theorem rel_lookup {κ : Type} [BEq κ] {xs : List (κ × α)} {ys : List (κ × β)}
    (h : List.Forall₂ (fun x y => x.1 = y.1 ∧ R x.2 y.2) xs ys) (k : κ) :
    Option.Rel R (xs.lookup k) (ys.lookup k) := by
  induction h with
  | nil => exact .none
  | @cons x y _ _ hxy _ ih =>
    obtain ⟨key, a⟩ := x
    obtain ⟨key', b⟩ := y
    obtain ⟨rfl, hab⟩ := hxy
    rw [List.lookup_cons, List.lookup_cons]
    cases k == key with
    | true => exact .some hab
    | false => exact ih

theorem map_eq_of_rel {f : α → γ} {g : β → γ} (h : Option.Rel R x y)
    (hfg : ∀ a b, R a b → f a = g b) : x.map f = y.map g := by
  cases h with
  | none => rfl
  | some h => exact congrArg some (hfg _ _ h)

theorem bind_eq_of_rel {f : α → Option γ} {g : β → Option γ} (h : Option.Rel R x y)
    (hfg : ∀ a b, R a b → f a = g b) : x.bind f = y.bind g := by
  cases h with
  | none => rfl
  | some h => exact hfg _ _ h

theorem any_eq_of_rel {f : α → Bool} {g : β → Bool} (h : Option.Rel R x y)
    (hfg : ∀ a b, R a b → f a = g b) : x.any f = y.any g := by
  cases h with
  | none => rfl
  | some h => exact hfg _ _ h

theorem map_eq_of_forall₂ {f : α → γ} {g : β → γ} {xs : List α} {ys : List β}
    (h : List.Forall₂ R xs ys) (hfg : ∀ a b, R a b → f a = g b) : xs.map f = ys.map g := by
  induction h with
  | nil => rfl
  | cons hab _ ih => rw [List.map_cons, List.map_cons, hfg _ _ hab, ih]

theorem filterMap_eq_of_forall₂ {f : α → Option γ} {g : β → Option γ} {xs : List α} {ys : List β}
    (h : List.Forall₂ R xs ys) (hfg : ∀ a b, R a b → f a = g b) :
    xs.filterMap f = ys.filterMap g := by
  induction h with
  | nil => rfl
  | cons hab _ ih => rw [List.filterMap_cons, List.filterMap_cons, hfg _ _ hab, ih]

theorem flatMap_eq_of_forall₂ {f : α → List γ} {g : β → List γ} {xs : List α} {ys : List β}
    (h : List.Forall₂ R xs ys) (hfg : ∀ a b, R a b → f a = g b) : xs.flatMap f = ys.flatMap g := by
  rw [List.flatMap_def, List.flatMap_def, map_eq_of_forall₂ h hfg]

end Related

namespace Go.Node

/-! ### Parts -/

/-- Parts of a phrase that are alike, in the same role. -/
structure AlikePart (c c' : Role × Node) : Prop where
  role : c.1 = c'.1
  fits : c.1.Fits c.2
  alike : Alike c.2 c'.2
  kept : c.1 = .key ∨ c.2.isType = true → c.2.bare = c'.2.bare

variable {n n' : Node} {cs cs' : Parts}

namespace Alike

theorem kind (h : Alike n n') : n.kind = n'.kind := by
  cases h <;> rfl

theorem isNamed (h : Alike n n') : n.isNamed = n'.isNamed := by
  rw [Node.isNamed, Node.isNamed, h.kind]

theorem isType (h : Alike n n') : n.isType = n'.isType := by
  rw [Node.isType, Node.isType, h.kind]

/-- A token is spelled alike. -/
theorem chars_of_isToken (h : Alike n n') (htoken : n.IsToken) : n.chars = n'.chars := by
  cases h with
  | leaf => rfl
  | branch => exact htoken.elim

theorem text_of_isToken (h : Alike n n') (htoken : n.IsToken) : n.text = n'.text :=
  congrArg Text.ofChars (h.chars_of_isToken htoken)

/-- A kind that no phrase has is that of a token. -/
theorem isToken (h : Alike n n') (hkind : ∀ cs, ¬n.kind.Admits cs) : n.IsToken := by
  cases h with
  | leaf => trivial
  | branch k hk hcs => exact absurd hk (hkind _)

theorem isComment (h : Alike n n') : n.isComment = n'.isComment := by
  rw [Node.isComment, Node.isComment, h.kind]

end Alike

/-- The phrases among neighbouring trees are alike. -/
theorem AlikeParts.phrases : {cs cs' : Parts} → AlikeParts cs cs' →
    List.Forall₂ Alike ((cs.map (·.2)).filter fun m => m.isNamed && !m.isComment)
      ((cs'.map (·.2)).filter fun m => m.isNamed && !m.isComment)
  | _, _, .nil => .nil
  | _, _, .cons _ hn _ hcs => by
    simp only [List.map_cons, List.filter_cons, ← hn.isNamed, ← hn.isComment]
    split
    · exact .cons hn hcs.phrases
    · exact hcs.phrases
  | _, _, .left _ hcs => hcs.phrases
  | _, _, .right _ hcs => hcs.phrases

/-- A comment stands in no role of its own. -/
theorem filter_commentPart {r : Role} (hr : r ≠ .part) (c : List Char × List Char) (cs : Parts) :
    (commentPart c :: cs).filter (·.1 == r) = cs.filter (·.1 == r) :=
  List.filter_cons_of_neg fun heq => hr (beq_iff_eq.mp heq).symm

/-- Those of neighbouring trees that play a role of their own are alike, and fit the role. -/
theorem AlikeParts.children {r : Role} (hr : r ≠ .part) : {cs cs' : Parts} → AlikeParts cs cs' →
    List.Forall₂ (fun m m' => AlikePart (r, m) (r, m')) ((cs.filter (·.1 == r)).map (·.2))
      ((cs'.filter (·.1 == r)).map (·.2))
  | _, _, .nil => .nil
  | _, _, @AlikeParts.cons r' _ _ _ _ hfits hn hkept hcs => by
    have ih := hcs.children hr
    rw [List.filter_cons, List.filter_cons]
    dsimp only
    split
    · rename_i hrole
      obtain rfl := beq_iff_eq.mp hrole
      exact .cons ⟨rfl, hfits, hn, hkept⟩ ih
    · exact ih
  | _, _, .left _ hcs => by
    rw [filter_commentPart hr]
    exact hcs.children hr
  | _, _, .right _ hcs => by
    rw [filter_commentPart hr]
    exact hcs.children hr

namespace Alike

theorem phrases (h : Alike n n') : List.Forall₂ Alike n.phrases n'.phrases := by
  cases h with
  | leaf => exact .nil
  | branch k hk hk' hcs =>
    rw [phrases_branch, phrases_branch]
    exact hcs.phrases

/-- The children in a role of their own, which are alike and fit the role. -/
theorem children (h : Alike n n') (r : Role) (hr : r ≠ .part) :
    List.Forall₂ (fun m m' => AlikePart (r, m) (r, m')) (n.children r) (n'.children r) := by
  cases h with
  | leaf => exact .nil
  | branch k hk hk' hcs => exact hcs.children hr

theorem child? (h : Alike n n') (r : Role) (hr : r ≠ .part) :
    Option.Rel (fun m m' => AlikePart (r, m) (r, m')) (n.child? r) (n'.child? r) :=
  rel_head? (h.children r hr)

/-- The text of a child that is a token. -/
theorem map_text_child? (h : Alike n n') {r : Role} (hr : ∀ m, r.Fits m → m.IsToken) :
    (n.child? r).map Node.text = (n'.child? r).map Node.text := by
  have hpart : r ≠ .part := by
    rintro rfl
    exact hr (.branch .block []) trivial
  exact map_eq_of_rel (h.child? r hpart) fun _ _ hm => hm.alike.text_of_isToken (hr _ hm.fits)

/-! ### Wrappers -/

theorem isWrapper (h : Alike n n') : n.isWrapper = n'.isWrapper := by
  rw [Node.isWrapper, Node.isWrapper, h.kind]

end Alike

theorem unwrapFirst?_comment (c : List Char × List Char) (cs : Parts) :
    unwrapFirst? (commentPart c :: cs) = unwrapFirst? cs := rfl

mutual

theorem alike_unwrap? : {n n' : Node} → Alike n n' → Option.Rel Alike n.unwrap? n'.unwrap?
  | _, _, .leaf k l l' t => .some (.leaf k l l' t)
  | _, _, .branch k hk hk' hcs => by
    rw [unwrap?, unwrap?]
    split
    · exact alike_unwrapFirst? hcs
    · exact .some (.branch k hk hk' hcs)

theorem alike_unwrapFirst? : {cs cs' : Parts} → AlikeParts cs cs' →
    Option.Rel Alike (unwrapFirst? cs) (unwrapFirst? cs')
  | _, _, .nil => .none
  | _, _, .cons _ hn _ hcs => by
    rw [unwrapFirst?, unwrapFirst?, ← hn.isNamed, ← hn.isComment]
    split
    · exact alike_unwrap? hn
    · exact alike_unwrapFirst? hcs
  | _, _, .left c hcs => by
    rw [unwrapFirst?_comment]
    exact alike_unwrapFirst? hcs
  | _, _, .right c hcs => by
    rw [unwrapFirst?_comment]
    exact alike_unwrapFirst? hcs

end

namespace Alike

theorem unwrap? (h : Alike n n') : Option.Rel Alike n.unwrap? n'.unwrap? := alike_unwrap? h

theorem expressions (h : Alike n n') : List.Forall₂ Alike n.expressions n'.expressions := by
  rw [Node.expressions, Node.expressions, ← h.kind]
  split
  · exact h.phrases
  · exact .cons h .nil

theorem expressionsOf (h : Alike n n') (r : Role) (hr : r ≠ .part) :
    List.Forall₂ Alike (n.expressionsOf r) (n'.expressionsOf r) := by
  have hchild := h.child? r hr
  rw [Node.expressionsOf, Node.expressionsOf]
  generalize n.child? r = x, n'.child? r = y at hchild
  cases hchild with
  | none => exact .nil
  | some hm => exact hm.alike.expressions

/-! ### Composite literals -/

theorem bracesOf? (h : Alike n n') : Option.Rel Alike n.bracesOf? n'.bracesOf? := by
  rw [Node.bracesOf?, Node.bracesOf?, ← h.kind]
  split
  · exact rel_imp (h.child? .body (by decide)) fun _ _ hm => hm.alike
  · split
    · exact .some h
    · exact .none

/-- Operators are spelled alike. -/
theorem any_operator_eq (h : Alike n n') (s : String) :
    (n.child? .operator).any (·.hasText s) = (n'.child? .operator).any (·.hasText s) :=
  any_eq_of_rel (h.child? .operator nofun) fun _ _ hop => by
    rw [hasText, hasText, hop.alike.chars_of_isToken hop.fits]

theorem dereference? (h : Alike n n') : Option.Rel Alike n.dereference? n'.dereference? := by
  rw [Node.dereference?, Node.dereference?, ← h.kind, h.any_operator_eq]
  split
  · split
    · exact rel_bind (h.child? .operand (by decide)) fun _ _ hx => hx.alike.unwrap?
    · exact .none
  · exact .some h

theorem literalBody? (h : Alike n n') : Option.Rel Alike n.literalBody? n'.literalBody? :=
  rel_bind (rel_bind h.unwrap? fun _ _ hx => hx.dereference?) fun _ _ hc => hc.bracesOf?

end Alike

/-- Elements with keys that are alike, with the same names. -/
structure AlikeElement (e e' : Node × Node) : Prop where
  name : e.1.text = e'.1.text
  key : Alike e.1 e'.1
  value : Alike e.2 e'.2

namespace Alike

/-- The key of an element is spelled alike. -/
theorem map_text_key (h : Alike n n') (hkind : n.kind = .keyedElement) {k k' : Node}
    (hk : n.phrases.head? = some k) (hk' : n'.phrases.head? = some k') :
    k.unwrap?.map Node.text = k'.unwrap?.map Node.text := by
  cases h with
  | leaf => exact nomatch hk
  | branch kind hkeyed hkeyed' hcs =>
    obtain rfl : kind = .keyedElement := hkind
    cases hcs with
    | nil => exact nomatch hkeyed
    | left => exact nomatch hkeyed
    | right => exact nomatch hkeyed'
    | @cons r key key' cs cs' hr hkey hkept hcs =>
      obtain rfl : r = .key := Option.some.inj hkeyed
      obtain ⟨hnamed, hcomment⟩ : key.isNamed = true ∧ key.isComment = false := hr
      simp only [phrases_branch, List.map_cons, List.filter_cons, ← hkey.isNamed, ← hkey.isComment,
        hnamed, hcomment, Bool.not_false, Bool.and_self, if_true, List.head?_cons,
        Option.some.injEq] at hk hk'
      subst hk hk'
      have hname := congrArg (·.unwrap?.map Node.text) (hkept (.inl rfl))
      simpa only [map_text_unwrap?_bare] using hname

theorem keyAndValue? (h : Alike n n') :
    Option.Rel AlikeElement n.keyAndValue? n'.keyAndValue? := by
  rw [Node.keyAndValue?, Node.keyAndValue?, ← h.kind]
  split
  · rename_i hkind
    have hphrases := h.phrases
    have hkey : ∀ k k', n.phrases.head? = some k → n'.phrases.head? = some k' →
      k.unwrap?.map Node.text = k'.unwrap?.map Node.text :=
        fun _ _ hk hk' => h.map_text_key (beq_iff_eq.mp hkind) hk hk'
    generalize n.phrases = ks, n'.phrases = ks' at hphrases hkey
    rcases hphrases with _ | ⟨hk, _ | ⟨hv, -⟩⟩
    · exact .none
    · exact .none
    · exact rel_bind (rel_and_of_map_eq hk.unwrap? (hkey _ _ rfl rfl)) fun _ _ hx =>
        rel_bind hv.unwrap? fun _ _ hy => .some ⟨hx.2, hx.1, hy⟩
  · exact .none

theorem keyedElements (h : Alike n n') :
    List.Forall₂ AlikeElement n.keyedElements n'.keyedElements := by
  rw [keyedElements_eq, keyedElements_eq]
  exact List.rel_filterMap (fun _ _ he => he.keyAndValue?) h.phrases

theorem listElements (h : Alike n n') :
    List.Forall₂ Alike n.listElements n'.listElements := by
  rw [listElements_eq, listElements_eq]
  exact List.rel_filterMap (fun _ _ he => he.unwrap?)
    (rel_filter h.phrases fun _ _ he => by rw [he.kind])

/-- The value of the first element with a key. -/
theorem fieldValue? (h : Alike n n') (key : String) :
    Option.Rel Alike (n.fieldValue? key) (n'.fieldValue? key) :=
  rel_map (rel_find? h.keyedElements fun _ _ he => by
    rw [hasText, hasText, List.map_injective_iff.mpr (fun _ _ => CodePoint.scalar.inj) he.name])
    fun _ _ he => he.value

end Alike

/-! ### Plain values -/

theorem firstString?_comment (c : List Char × List Char) (cs : Parts) :
    firstString? (commentPart c :: cs) = firstString? cs := rfl

mutual

theorem alike_stringValue? : {n n' : Node} → Alike n n' → n.stringValue? = n'.stringValue?
  | _, _, .leaf _ _ _ _ => rfl
  | _, _, .branch k hk hk' hcs => by
    have hoperator := Alike.any_operator_eq (.branch k hk hk' hcs) "+"
    rw [stringValue?, stringValue?, alike_firstString? hcs, hoperator,
      alike_stringIn? (r := .left) nofun hcs, alike_stringIn? (r := .right) nofun hcs]

theorem alike_firstString? : {cs cs' : Parts} → AlikeParts cs cs' →
    firstString? cs = firstString? cs'
  | _, _, .nil => rfl
  | _, _, .cons _ hn _ hcs => by
    rw [firstString?, firstString?, ← hn.isNamed, ← hn.isComment, alike_stringValue? hn,
      alike_firstString? hcs]
  | _, _, .left c hcs => (firstString?_comment c _).trans (alike_firstString? hcs)
  | _, _, .right c hcs => (alike_firstString? hcs).trans (firstString?_comment c _).symm

theorem alike_stringIn? {r : Role} (hr : r ≠ .part) : {cs cs' : Parts} → AlikeParts cs cs' →
    stringIn? r cs = stringIn? r cs'
  | _, _, .nil => rfl
  | _, _, .cons _ hn _ hcs => by
    rw [stringIn?, stringIn?, alike_stringValue? hn, alike_stringIn? hr hcs]
  | _, _, .left _ hcs => by
    rw [commentPart, stringIn?, if_neg (by simpa using hr.symm), alike_stringIn? hr hcs]
  | _, _, .right _ hcs => by
    rw [commentPart, stringIn?, if_neg (by simpa using hr.symm), alike_stringIn? hr hcs]

end

namespace Alike

theorem stringValue? (h : Alike n n') : n.stringValue? = n'.stringValue? := alike_stringValue? h

theorem intValue? (h : Alike n n') : n.intValue? = n'.intValue? :=
  bind_eq_of_rel h.unwrap? fun x x' hx => by
    rw [← hx.kind]
    split
    · rename_i hkind
      have htoken := hx.isToken fun cs => by simp [beq_iff_eq.mp hkind, Kind.Admits]
      rw [hx.chars_of_isToken htoken]
    · rfl

theorem isTrue (h : Alike n n') : n.isTrue = n'.isTrue :=
  any_eq_of_rel h.unwrap? fun _ _ hx => by rw [hx.kind]

theorem functionName? (h : Alike n n') : n.functionName? = n'.functionName? := by
  rw [Node.functionName?, Node.functionName?, ← h.kind]
  split
  · rename_i hkind
    have htoken := h.isToken fun cs => by simp [beq_iff_eq.mp hkind, Kind.Admits]
    rw [h.text_of_isToken htoken]
  · rw [h.map_text_child? (r := .field) fun _ hm => hm]

theorem callName? (h : Alike n n') : n.callName? = n'.callName? :=
  bind_eq_of_rel h.unwrap? fun x x' hx => by
    rw [← hx.kind]
    split
    · exact bind_eq_of_rel (hx.child? .function nofun) fun _ _ hf =>
        bind_eq_of_rel hf.alike.unwrap? fun _ _ hg => hg.functionName?
    · rfl

/-! ### Functions -/

theorem declaredName (h : Alike n n') : n.declaredName = n'.declaredName :=
  congrArg (·.getD []) (h.map_text_child? (r := .name) fun _ hm => hm)

theorem parameterCount (h : Alike n n') : n.parameterCount = n'.parameterCount :=
  congrArg (·.getD 0) (map_eq_of_rel (h.child? .parameters nofun) fun _ _ hps =>
    hps.alike.phrases.length_eq)

/-- A comment in a body is no statement. -/
theorem statements_eq (b : Node) :
    (b.namedChildren.flatMap fun c =>
      if c.kind == .statementList then c.phrases else if c.isComment then [] else [c]) =
    b.phrases.flatMap fun c => if c.kind == .statementList then c.phrases else [c] := by
  rw [Node.phrases]
  induction b.namedChildren with
  | nil => rfl
  | cons c cs ih =>
    rw [List.flatMap_cons, ih, List.filter_cons]
    cases hc : c.isComment with
    | false => rfl
    | true =>
      rw [beq_iff_eq.mp hc]
      rfl

theorem bodyStatements (h : Alike n n') :
    List.Forall₂ Alike n.bodyStatements n'.bodyStatements := by
  have hbody := h.child? .body nofun
  rw [Node.bodyStatements, Node.bodyStatements]
  generalize n.child? .body = x, n'.child? .body = y at hbody
  cases hbody with
  | none => exact .nil
  | some hb =>
    dsimp only
    rw [statements_eq, statements_eq]
    refine List.rel_flatMap hb.alike.phrases fun c c' hc => ?_
    rw [← hc.kind]
    split
    · exact hc.phrases
    · exact .cons hc .nil

theorem returnValues (h : Alike n n') : List.Forall₂ Alike n.returnValues n'.returnValues :=
  List.rel_flatMap h.phrases fun _ _ hv => hv.expressions

end Alike

/-- The nodes of a walk that are no comments. -/
theorem filter_walk (hcomment : n.isComment = false) : n.walk.filter (!·.isComment) =
    n :: (n.namedChildren.flatMap walk).filter (!·.isComment) := by
  rw [walk_eq, List.filter_cons, hcomment]
  rfl

theorem walk_leaf (k : Kind) (leading text : List Char) :
    (leaf k leading text).walk = [leaf k leading text] := by
  rw [walk_eq]
  rfl

theorem filter_walks_comment (c : List Char × List Char) (cs : Parts) :
    ((((commentPart c :: cs).map (·.2)).filter isNamed).flatMap walk).filter (!·.isComment) =
      (((cs.map (·.2)).filter isNamed).flatMap walk).filter (!·.isComment) := by
  change ((leaf .comment c.1 c.2).walk ++ _).filter (!·.isComment) = _
  rw [walk_leaf]
  rfl

mutual

theorem alike_walk : {n n' : Node} → Alike n n' →
    List.Forall₂ Alike (n.walk.filter (!·.isComment)) (n'.walk.filter (!·.isComment))
  | _, _, .leaf k l l' t => by
    rw [walk_leaf, walk_leaf]
    exact rel_filter (.cons (.leaf k l l' t) .nil) fun _ _ hm => by rw [hm.isComment]
  | _, _, .branch k hk hk' hcs => by
    have hcomment : (k == .comment) = false := by
      refine beq_eq_false_iff_ne.mpr ?_
      rintro rfl
      exact hk
    rw [filter_walk (n := branch k _) hcomment, filter_walk (n := branch k _) hcomment]
    exact .cons (.branch k hk hk' hcs) (alike_walks hcs)

theorem alike_walks : {cs cs' : Parts} → AlikeParts cs cs' →
    List.Forall₂ Alike
      ((((cs.map (·.2)).filter isNamed).flatMap walk).filter (!·.isComment))
      ((((cs'.map (·.2)).filter isNamed).flatMap walk).filter (!·.isComment))
  | _, _, .nil => .nil
  | _, _, .cons _ hn _ hcs => by
    simp only [List.map_cons, List.filter_cons, ← hn.isNamed]
    split
    · rw [List.flatMap_cons, List.flatMap_cons, List.filter_append, List.filter_append]
      exact List.rel_append (alike_walk hn) (alike_walks hcs)
    · exact alike_walks hcs
  | _, _, .left c hcs => by
    rw [filter_walks_comment]
    exact alike_walks hcs
  | _, _, .right c hcs => by
    rw [filter_walks_comment]
    exact alike_walks hcs

end

/-- The nodes of trees that are alike, without comments. -/
theorem Alike.walk (h : Alike n n') :
    List.Forall₂ Alike (n.walk.filter (!·.isComment)) (n'.walk.filter (!·.isComment)) :=
  alike_walk h

/-! ### Returned literals -/

/-- Literals that are alike. -/
structure Literal.Alike (l l' : Literal) : Prop where
  expression : l.expression.Alike l'.expression
  braces : l.braces.Alike l'.braces

/-- Bindings that are alike, of the same variables. -/
abbrev Bindings.Alike (bindings bindings' : Bindings) : Prop :=
  List.Forall₂ (fun b b' => b.1 = b'.1 ∧ b.2.Alike b'.2) bindings bindings'

namespace Alike

variable {x x' : Node} {bindings bindings' : Bindings}

theorem bindLiteral (hx : x.text = x'.text) (h : Alike n n') (hb : bindings.Alike bindings') :
    (bindLiteral bindings x n).Alike (bindLiteral bindings' x' n') := by
  have hbody := h.literalBody?
  rw [Node.bindLiteral, Node.bindLiteral]
  generalize n.literalBody? = y, n'.literalBody? = y' at hbody
  cases hbody with
  | none => exact hb
  | some hl => exact .cons ⟨hx, h, hl⟩ hb

/-- One variable and one value count. -/
theorem bindSingle {R : Node → Node → Prop} (hb : bindings.Alike bindings')
    {f f' : Node → Node → Bindings}
    (hf : ∀ x x' v v', R x x' → Alike v v' → (f x v).Alike (f' x' v')) :
    ∀ {xs xs' vs vs' : List Node}, List.Forall₂ R xs xs' → List.Forall₂ Alike vs vs' →
    Bindings.Alike
      (match xs, vs with
        | [x], [v] => f x v
        | _, _ => bindings)
      (match xs', vs' with
        | [x], [v] => f' x v
        | _, _ => bindings')
  | _, _, _, _, .nil, _ => hb
  | _, _, _, _, .cons _ .nil, .nil => hb
  | _, _, _, _, .cons hx .nil, .cons hv .nil => hf _ _ _ _ hx hv
  | _, _, _, _, .cons _ .nil, .cons _ (.cons _ _) => hb
  | _, _, _, _, .cons _ (.cons _ _), _ => hb

theorem bindSpec (h : Alike n n') (hb : bindings.Alike bindings') :
    (bindSpec bindings n).Alike (bindSpec bindings' n') := by
  rw [Node.bindSpec, Node.bindSpec, ← h.kind]
  split
  · exact bindSingle hb (fun _ _ _ _ hx hv =>
      hv.bindLiteral (hx.alike.text_of_isToken hx.fits) hb) (h.children .name nofun)
        (h.expressionsOf .value nofun)
  · exact hb

/-- A comment binds nothing. -/
theorem foldl_bindSpec (bindings : Bindings) (ns : List Node) :
    ns.foldl Node.bindSpec bindings = (ns.filter (!·.isComment)).foldl Node.bindSpec bindings := by
  induction ns generalizing bindings with
  | nil => rfl
  | cons n ns ih =>
    rw [List.foldl_cons, List.filter_cons]
    cases hn : n.isComment with
    | false => exact ih _
    | true =>
      have hsame : Node.bindSpec bindings n = bindings := by
        rw [Node.bindSpec, beq_iff_eq.mp hn]
        rfl
      rw [hsame]
      exact ih bindings

theorem bindStatement (h : Alike n n') (hb : bindings.Alike bindings') :
    (bindStatement bindings n).Alike (bindStatement bindings' n') := by
  rw [Node.bindStatement, Node.bindStatement, ← h.kind]
  split
  · refine bindSingle hb (fun x x' _ _ hx hv => ?_) (h.expressionsOf .left nofun)
      (h.expressionsOf .right nofun)
    rw [← hx.kind]
    split
    · rename_i hkind
      have htoken := hx.isToken fun cs => by simp [beq_iff_eq.mp hkind, Kind.Admits]
      exact hv.bindLiteral (hx.text_of_isToken htoken) hb
    · exact hb
  · split
    · rw [foldl_bindSpec, foldl_bindSpec bindings']
      exact List.rel_foldl (P := Bindings.Alike) (R := Node.Alike)
        (fun _ _ hb _ _ hs => hs.bindSpec hb) hb h.walk
    · exact hb

theorem resolve? (h : Alike n n') (hb : bindings.Alike bindings') :
    Option.Rel Literal.Alike (resolve? bindings n) (resolve? bindings' n') := by
  have hbody := h.literalBody?
  rw [Node.resolve?, Node.resolve?]
  generalize n.literalBody? = y, n'.literalBody? = y' at hbody
  cases hbody with
  | some hl => exact .some ⟨h, hl⟩
  | none =>
    refine rel_bind h.unwrap? fun x x' hx => ?_
    rw [← hx.kind]
    split
    · rename_i hkind
      have htoken := hx.isToken fun cs => by simp [beq_iff_eq.mp hkind, Kind.Admits]
      rw [← hx.text_of_isToken htoken]
      exact rel_lookup hb _
    · exact .none

end Alike

theorem alike_returnedFrom? {bindings bindings' : Bindings} {ss ss' : List Node}
    (h : List.Forall₂ Alike ss ss') (hb : bindings.Alike bindings') :
    Option.Rel Literal.Alike (returnedFrom? bindings ss) (returnedFrom? bindings' ss') := by
  induction h generalizing bindings bindings' with
  | nil => exact .none
  | cons hs _ ih =>
    rw [returnedFrom?, returnedFrom?, ← hs.kind]
    split
    · rename_i s s' ss ss' _ _
      have hvalue := rel_bind (rel_head? hs.returnValues) fun _ _ hv => hv.resolve? hb
      generalize s.returnValues.head?.bind (Node.resolve? bindings) = y,
        s'.returnValues.head?.bind (Node.resolve? bindings') = y' at hvalue
      cases hvalue with
      | none => exact ih hb
      | some hl => exact .some hl
    · exact ih (hs.bindStatement hb)

theorem Alike.returnedLiteral? (h : Alike n n') :
    Option.Rel Literal.Alike n.returnedLiteral? n'.returnedLiteral? :=
  alike_returnedFrom? h.bodyStatements .nil

end Go.Node

end ProviderCatalog
