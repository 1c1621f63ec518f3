import ProviderCatalog.Proofs.Go.Comments
import ProviderCatalog.Proofs.Go.RelabellingStatements
import ProviderCatalog.Proofs.Go.Sources

/-!
# Trees of sources that differ in one place between two tokens

If what precedes one token of a source is replaced by other blanks and comments, then the phrases
stay the same but for that place. The place of the token in the tree is found with a mark: the
tokens are parsed with a mark in front of the token, and the two trees are the one with the mark,
which is replaced in two ways. As a tree spells its tokens, the mark stands in it once, behind all
that precedes the token.

The comments in front of the tokens then become nodes of the tree. Wherever they come to stand, the
phrases between them are the same, in the same roles. In front of the first part of a phrase there
is no comment, because it belongs to a phrase further out.

## Main definitions

* `Node.Alike`: trees that differ only in comments and in what precedes tokens, and not inside types
  and keys.
* `Node.severs`: whether a place lies between two tokens of a type or of a key.
* `Node.leaves`: the tokens of a tree.

## Main results

* `exists_mark`: the place of a mark.
* `Node.alike_of_leaves`: the replacements of a mark.
* `Node.Alike.withComments`, `Node.Alike.ofFile`: the comments as nodes.
* `Boundary.parse?_blockComment`: the tree of a source with one more comment.
-/

namespace ProviderCatalog.Go

/-! ### Trees that are alike -/

namespace Node

mutual

/-- Trees that differ only in what precedes tokens and in comments, and not inside types and
keys. -/
inductive Alike : Node → Node → Prop where
  | leaf (k : Kind) (leading leading' text : List Char) :
      Alike (leaf k leading text) (leaf k leading' text)
  | branch (k : Kind) {cs cs' : List (Role × Node)} (hk : k.Admits cs) (hk' : k.Admits cs')
      (hcs : AlikeParts cs cs') : Alike (branch k cs) (branch k cs')

/-- Neighbouring trees that are alike, with the same roles, and comments between them. -/
inductive AlikeParts : List (Role × Node) → List (Role × Node) → Prop where
  | nil : AlikeParts [] []
  | cons {r : Role} {n n' : Node} {cs cs' : List (Role × Node)} (hr : r.Fits n) (hn : Alike n n')
      (hkept : r = .key ∨ n.isType = true → n.bare = n'.bare) (hcs : AlikeParts cs cs') :
      AlikeParts ((r, n) :: cs) ((r, n') :: cs')
  | left (comment : List Char × List Char) {cs cs' : List (Role × Node)}
      (hcs : AlikeParts cs cs') : AlikeParts (commentPart comment :: cs) cs'
  | right (comment : List Char × List Char) {cs cs' : List (Role × Node)}
      (hcs : AlikeParts cs cs') : AlikeParts cs (commentPart comment :: cs')

end

mutual

/-- Whether a place lies between two tokens of a type or of a key. The place is given by the length
of what stands in front of it in the tree. -/
def severs : Node → Nat → Bool
  | leaf _ _ _, _ => false
  | branch _ cs, p => seversParts cs p

/-- Whether a place lies between two tokens of a type or of a key in neighbouring trees. -/
def seversParts : List (Role × Node) → Nat → Bool
  | [], _ => false
  | (r, n) :: cs, p =>
    if p < n.fullText.length then (0 < p && (r == .key || n.isType)) || severs n p
    else seversParts cs (p - n.fullText.length)

end

/-! ### Tokens -/

mutual

/-- The tokens of a tree, each with what precedes it. -/
def leaves : Node → List (List Char × List Char)
  | leaf _ leading text => [(leading, text)]
  | branch _ cs => leavesOf cs

/-- The tokens of neighbouring trees. -/
def leavesOf : List (Role × Node) → List (List Char × List Char)
  | [] => []
  | (_, n) :: cs => leaves n ++ leavesOf cs

end

end Node

/-- The tokens of a tree as they are spelled after replacements. -/
def spelledBy (φ : Relabelling) (ls : List (List Char × List Char)) : List Char :=
  ls.flatMap fun x => φ x.1 ++ x.2

section

variable {φ : Relabelling}

@[simp] theorem spelledBy_nil : spelledBy φ [] = [] := rfl

@[simp] theorem spelledBy_cons (x : List Char × List Char) (ls : List (List Char × List Char)) :
    spelledBy φ (x :: ls) = φ x.1 ++ (x.2 ++ spelledBy φ ls) := by
  simp [spelledBy]

@[simp] theorem spelledBy_append (ls ls' : List (List Char × List Char)) :
    spelledBy φ (ls ++ ls') = spelledBy φ ls ++ spelledBy φ ls' :=
  List.flatMap_append

mutual

theorem Node.fullText_relabel : (n : Node) → (relabel φ n).fullText = spelledBy φ n.leaves
  | .leaf _ _ _ => by simp [Node.fullText, Node.leaves]
  | .branch _ cs => by
    rw [relabel_branch, Node.fullText, Node.leaves, Node.fullTextOf_relabel cs]

theorem Node.fullTextOf_relabel : (cs : Parts) →
    Node.fullTextOf (relabel φ cs) = spelledBy φ (Node.leavesOf cs)
  | [] => rfl
  | (r, n) :: cs => by
    rw [relabel_cons, relabel_part, Node.fullTextOf, Node.leavesOf, spelledBy_append,
      Node.fullText_relabel n, Node.fullTextOf_relabel cs]

end

end

/-! ### Trees with the shapes of their kinds -/

theorem Kind.Admits.relabel {k : Kind} {cs : Parts} {φ : Relabelling} (h : k.Admits cs) :
    k.Admits (relabel φ cs) := by
  cases k with
  | keyedElement => exact (congrArg List.head? List.map_map).trans h
  | parameterList =>
    obtain ⟨leading, rest, rfl⟩ := h
    exact ⟨φ leading, Go.relabel φ rest, rfl⟩
  | _ => exact h

theorem Role.Fits.relabel {r : Role} {n : Node} {φ : Relabelling} (h : r.Fits n) :
    r.Fits (relabel φ n) := by
  cases r with
  | name | field | operator =>
    cases n with
    | leaf k leading text => exact trivial
    | branch k cs => exact h
  | key => exact h.imp (isNamed_relabel n).trans (isComment_relabel n).trans
  | result => exact h.imp (isType_relabel n).trans (kind_relabel n).trans
  | _ => exact h

namespace Node

mutual

theorem Alike.refl : (n : Node) → Sound n → Alike n n
  | .leaf k leading text, _ => .leaf k leading leading text
  | .branch k cs, h => by
    obtain ⟨hk, -, hcs⟩ := (sound_branch k cs).mp h
    exact .branch k hk hk (AlikeParts.refl cs hcs)

theorem AlikeParts.refl : (cs : Parts) → Sound cs → AlikeParts cs cs
  | [], _ => .nil
  | (_, n) :: cs, h => by
    obtain ⟨⟨hr, hn⟩, hcs⟩ := (sound_cons _ cs).mp h
    exact .cons hr (Alike.refl n hn) (fun _ => rfl) (AlikeParts.refl cs hcs)

end

mutual

theorem text_ne_nil_of_mem_leaves : (n : Node) → Sound n → ∀ x ∈ n.leaves, x.2 ≠ []
  | .leaf _ _ _, h => List.forall_mem_singleton.mpr h
  | .branch k cs, h => text_ne_nil_of_mem_leavesOf cs ((sound_branch k cs).mp h).2.2

theorem text_ne_nil_of_mem_leavesOf : (cs : Parts) → Sound cs → ∀ x ∈ leavesOf cs, x.2 ≠ []
  | [], _ => List.forall_mem_nil _
  | (_, n) :: cs, h => by
    obtain ⟨⟨-, hn⟩, hcs⟩ := (sound_cons _ cs).mp h
    exact List.forall_mem_append.mpr
      ⟨text_ne_nil_of_mem_leaves n hn, text_ne_nil_of_mem_leavesOf cs hcs⟩

end

/-- A tree has tokens. -/
theorem leaves_ne_nil : (n : Node) → Sound n → n.leaves ≠ []
  | .leaf _ _ _, _ => List.cons_ne_nil _ _
  | .branch _ [], h => absurd rfl ((sound_branch _ _).mp h).2.1
  | .branch _ ((_, n) :: cs), h => by
    have hn := ((sound_cons _ cs).mp ((sound_branch _ _).mp h).2.2).1.2
    exact List.append_ne_nil_of_left_ne_nil (leaves_ne_nil n hn) _

end Node

/-! ### Trees with their comments -/

@[simp] theorem Node.isType_withComments (front : List Char) (n : Node) :
    (n.withComments front).isType = n.isType := by
  rw [isType, kind_withComments, isType]

theorem Kind.Admits.withComments {k : Kind} {cs : Parts} {front : List Char} (h : k.Admits cs) :
    k.Admits (Node.partsWithComments (some front) cs) := by
  cases k with
  | keyedElement =>
    cases cs with
    | nil => exact nomatch h
    | cons c cs => exact h
  | parameterList =>
    obtain ⟨leading, rest, rfl⟩ := h
    exact ⟨front, Node.partsWithComments none rest, rfl⟩
  | _ => exact h

theorem Role.Fits.withComments {r : Role} {n : Node} {front : List Char} (h : r.Fits n) :
    r.Fits (n.withComments front) := by
  cases r with
  | name | field | operator =>
    cases n with
    | leaf k leading text => exact trivial
    | branch k cs => exact h
  | key =>
    rw [Fits, Node.IsPhrase, Node.isNamed, Node.isComment, Node.kind_withComments]
    exact h
  | result =>
    rw [Fits, Node.isType_withComments, Node.kind_withComments]
    exact h
  | _ => exact h

namespace Node

/-- What precedes a tree is no part of the tree with its comments as nodes either. -/
theorem bare_withComments (front : List Char) (n : Node) :
    (n.withComments front).bare = n.bare.withComments [] := by
  cases n with
  | leaf _ _ _ => rfl
  | branch k cs =>
    cases cs with
    | nil => rfl
    | cons part cs =>
    obtain ⟨r, n⟩ := part
    change branch k ((r, (n.withComments front).bare) :: partsWithComments none cs) =
      branch k ((r, n.bare.withComments []) :: partsWithComments none cs)
    rw [bare_withComments front n]

theorem AlikeParts.left_append {cs cs' : Parts} (h : AlikeParts cs cs')
    (comments : List (List Char × List Char)) :
    AlikeParts (comments.map commentPart ++ cs) cs' := by
  induction comments with
  | nil => exact h
  | cons c comments ih => exact .left c ih

theorem AlikeParts.right_append {cs cs' : Parts} (h : AlikeParts cs cs')
    (comments : List (List Char × List Char)) :
    AlikeParts cs (comments.map commentPart ++ cs') := by
  induction comments with
  | nil => exact h
  | cons c comments ih => exact .right c ih

/-- Comments behind trees that are alike. -/
theorem AlikeParts.append_comments {cs cs' : Parts} : AlikeParts cs cs' →
    (comments comments' : List (List Char × List Char)) →
    AlikeParts (cs ++ comments.map commentPart) (cs' ++ comments'.map commentPart)
  | .nil, comments, comments' => by
    simpa using (AlikeParts.nil.left_append comments).right_append comments'
  | .cons hr hn hkept hcs, comments, comments' => .cons hr hn hkept (hcs.append_comments _ _)
  | .left c hcs, comments, comments' => .left c (hcs.append_comments _ _)
  | .right c hcs, comments, comments' => .right c (hcs.append_comments _ _)

theorem partsWithComments_comment (front : Option (List Char)) (comment : List Char × List Char)
    (cs : Parts) : ∃ (comments : List (List Char × List Char)) (blanks : List Char),
      partsWithComments front (commentPart comment :: cs) =
        comments.map commentPart ++ commentPart (blanks, comment.2) :: partsWithComments none cs :=
  ⟨_, _, rfl⟩

mutual

/-- Trees that are alike stay so with their comments as nodes. -/
theorem Alike.withComments : {n n' : Node} → Alike n n' → (front front' : List Char) →
    Alike (n.withComments front) (n'.withComments front')
  | _, _, .leaf k _ _ text, front, front' => .leaf k front front' text
  | _, _, .branch k hk hk' hcs, front, front' =>
    .branch k hk.withComments hk'.withComments (hcs.withComments (some front) (some front'))

theorem AlikeParts.withComments : {cs cs' : Parts} → AlikeParts cs cs' →
    (front front' : Option (List Char)) →
    AlikeParts (partsWithComments front cs) (partsWithComments front' cs')
  | _, _, .nil, _, _ => .nil
  | _, _, .cons hr hn hkept hcs, _, _ =>
    .left_append (.right_append (.cons hr.withComments (hn.withComments _ _) (fun h => by
      rw [isType_withComments] at h
      rw [bare_withComments, bare_withComments, hkept h]) (hcs.withComments none none)) _) _
  | _, _, .left comment hcs, front, front' => by
    obtain ⟨comments, blanks, heq⟩ := partsWithComments_comment front comment _
    rw [heq]
    exact .left_append (.left _ (hcs.withComments none front')) comments
  | _, _, .right comment hcs, front, front' => by
    obtain ⟨comments, blanks, heq⟩ := partsWithComments_comment front' comment _
    rw [heq]
    exact .right_append (.right _ (hcs.withComments front none)) comments

end

end Node

/-! ### Marks -/

/-- The replacement of a mark. -/
def Relabelling.replace (μ : List Char) (hμ : μ ≠ []) (l : List Char) : Relabelling where
  toFun leading := if leading = μ then l else leading
  map_nil := if_neg hμ.symm

section Marks

variable {μ : List Char} {hμ : μ ≠ []} {l l' : List Char}

/-- No token stands behind the mark. -/
abbrev Unmarked (μ : List Char) (ls : List (List Char × List Char)) : Prop := ∀ x ∈ ls, x.1 ≠ μ

open Relabelling (replace)

@[simp] theorem Relabelling.replace_self : replace μ hμ l μ = l := if_pos rfl

theorem Relabelling.replace_of_ne {leading : List Char} (h : leading ≠ μ) :
    replace μ hμ l leading = leading := if_neg h

namespace Node

mutual

theorem relabel_replace : (n : Node) → Unmarked μ n.leaves → relabel (replace μ hμ l) n = n
  | .leaf _ leading text, h => by
    rw [relabel_leaf, Relabelling.replace_of_ne (h (leading, text) List.mem_cons_self)]
  | .branch k cs, h => by rw [relabel_branch, relabelParts_replace cs h]

theorem relabelParts_replace : (cs : Parts) → Unmarked μ (leavesOf cs) →
    relabel (replace μ hμ l) cs = cs
  | [], _ => rfl
  | (r, n) :: cs, h => by
    obtain ⟨hn, hcs⟩ := List.forall_mem_append.mp h
    rw [relabel_cons, relabel_part, relabel_replace n hn, relabelParts_replace cs hcs]

end

/-- A mark in front of a tree is no part of what the tree spans. -/
theorem bare_relabel_replace : (n : Node) → Sound n → ∀ {s : List Char}
    {ls : List (List Char × List Char)}, n.leaves = (μ, s) :: ls → Unmarked μ ls →
    (relabel (replace μ hμ l) n).bare = (relabel (replace μ hμ l') n).bare
  | .leaf _ _ _, _, _, _, _, _ => rfl
  | .branch _ [], h, _, _, _, _ => absurd rfl ((sound_branch _ _).mp h).2.1
  | .branch k ((r, n) :: cs), h, s, ls, hleaves, hls => by
    have hn := ((sound_cons _ cs).mp ((sound_branch _ _).mp h).2.2).1.2
    obtain ⟨x, more, hmore⟩ := List.exists_cons_of_ne_nil (leaves_ne_nil n hn)
    rw [leaves, leavesOf, hmore, List.cons_append, List.cons.injEq] at hleaves
    obtain ⟨rfl, rfl⟩ := hleaves
    obtain ⟨hrest, hcs⟩ := List.forall_mem_append.mp hls
    simp only [relabel_branch, relabel_cons, relabel_part, bare,
      bare_relabel_replace n hn hmore hrest, relabelParts_replace cs hcs]

theorem spelledBy_eq_nil_iff {φ : Relabelling} {ls : List (List Char × List Char)}
    (h : ∀ x ∈ ls, x.2 ≠ []) : spelledBy φ ls = [] ↔ ls = [] := by
  cases ls with
  | nil => exact iff_of_true rfl rfl
  | cons x ls => simp [h x List.mem_cons_self]

/-- The mark stands in one of two neighbours. -/
theorem mark_cases {s : List Char} {ls ls' front back : List (List Char × List Char)}
    (h : ls ++ ls' = front ++ (μ, s) :: back) :
    (∃ more, ls = front ++ (μ, s) :: more ∧ back = more ++ ls') ∨
      ∃ more, front = ls ++ more ∧ ls' = more ++ (μ, s) :: back := by
  rcases List.append_eq_append_iff.mp h with ⟨more, hfront, hmore⟩ | ⟨more, hls, hmore⟩
  · exact .inr ⟨more, hfront, hmore⟩
  · rcases List.cons_eq_append_iff.mp hmore with ⟨rfl, hls'⟩ | ⟨more, rfl, hback⟩
    · exact .inr ⟨[], by simpa using hls.symm, hls'⟩
    · exact .inl ⟨more, hls, hback⟩

mutual

/-- The trees that replace a mark in two ways are alike if the mark stands inside no type and inside
no key. -/
theorem alike_of_leaves : (n : Node) → Sound n → ∀ {front back : List (List Char × List Char)}
    {s : List Char}, n.leaves = front ++ (μ, s) :: back → Unmarked μ front → Unmarked μ back →
    (relabel (replace μ hμ l) n).severs (spelledBy (replace μ hμ l) front).length = false →
    Alike (relabel (replace μ hμ l) n) (relabel (replace μ hμ l') n)
  | .leaf _ _ _, _, _, _, _, _, _, _, _ => .leaf _ _ _ _
  | .branch k cs, h, _, _, _, hleaves, hfront, hback, hsevers => by
    obtain ⟨hk, -, hcs⟩ := (sound_branch k cs).mp h
    rw [relabel_branch, severs] at hsevers
    rw [relabel_branch, relabel_branch]
    exact .branch k hk.relabel hk.relabel (alikeParts_of_leaves cs hcs hleaves hfront hback hsevers)

theorem alikeParts_of_leaves : (cs : Parts) → Sound cs → ∀
    {front back : List (List Char × List Char)} {s : List Char},
    leavesOf cs = front ++ (μ, s) :: back → Unmarked μ front → Unmarked μ back →
    seversParts (relabel (replace μ hμ l) cs) (spelledBy (replace μ hμ l) front).length = false →
    AlikeParts (relabel (replace μ hμ l) cs) (relabel (replace μ hμ l') cs)
  | [], _, _, _, _, _, _, _, _ => .nil
  | (r, n) :: cs, h, front, back, s, hleaves, hfront, hback, hsevers => by
    obtain ⟨⟨hr, hn⟩, hcs⟩ := (sound_cons _ cs).mp h
    rw [relabel_cons, relabel_part, seversParts, fullText_relabel] at hsevers
    rw [relabel_cons, relabel_cons, relabel_part, relabel_part]
    rcases mark_cases hleaves with ⟨more, hmore, rfl⟩ | ⟨more, rfl, hmore⟩
    · -- the mark stands in the first part, and the others stay as they are
      obtain ⟨hmarked, hcs'⟩ := List.forall_mem_append.mp hback
      have htext := text_ne_nil_of_mem_leaves n hn
      rw [hmore] at htext hsevers
      have hs : s ≠ [] := htext (μ, s) (by simp)
      have hinside : (spelledBy (replace μ hμ l) front).length <
          (spelledBy (replace μ hμ l) (front ++ (μ, s) :: more)).length := by
        have := List.length_pos_of_ne_nil hs
        simp
        omega
      rw [if_pos hinside, Bool.or_eq_false_iff] at hsevers
      rw [relabelParts_replace cs hcs', relabelParts_replace cs hcs']
      refine .cons hr.relabel (alike_of_leaves n hn hmore hfront hmarked hsevers.2)
        (fun hkept => ?_) (AlikeParts.refl cs hcs)
      have hnil : spelledBy (replace μ hμ l) front = [] := by
        by_contra hne
        have hpos := List.length_pos_of_ne_nil hne
        have hsevers := hsevers.1
        rw [isType_relabel] at hkept hsevers
        rcases hkept with rfl | htype
        · simp [hpos] at hsevers
        · simp [hpos, htype] at hsevers
      rw [spelledBy_eq_nil_iff fun x hx => htext x (List.mem_append_left _ hx)] at hnil
      subst hnil
      exact bare_relabel_replace n hn hmore hmarked
    · -- the first part stays as it is
      obtain ⟨hn', hmarked⟩ := List.forall_mem_append.mp hfront
      rw [spelledBy_append, List.length_append, if_neg (by omega), Nat.add_sub_cancel_left]
        at hsevers
      rw [relabel_replace n hn', relabel_replace n hn']
      exact .cons hr (Alike.refl n hn) (fun _ => rfl)
        (alikeParts_of_leaves cs hcs hmore hmarked hback hsevers)

end

end Node

/-- A text that begins as another one does which has anything at the end begins with the first. -/
theorem eq_append_of_forall {a front back : List Char} {f : List Char → List Char}
    (h : ∀ w, a ++ f w = front ++ (w ++ back)) : ∃ more, front = a ++ more := by
  induction a generalizing front with
  | nil => exact ⟨front, rfl⟩
  | cons x a ih =>
    cases front with
    | nil =>
      -- two texts with different first characters cannot both begin like this
      have hx (c : Char) : x = c := (List.cons.inj (h [c])).1
      exact absurd ((hx 'a').symm.trans (hx 'b')) (by decide)
    | cons y front =>
      obtain ⟨rfl, -⟩ := List.cons.inj (h [])
      obtain ⟨more, rfl⟩ := ih fun w => (List.cons.inj (h w)).2
      exact ⟨more, rfl⟩

/-- No mark stands in what is spelled alike after all replacements. -/
theorem unmarked_of_forall {ls : List (List Char × List Char)} {t : List Char}
    (h : ∀ w, spelledBy (replace μ hμ w) ls = t) : Unmarked μ ls := by
  induction ls generalizing t with
  | nil => exact List.forall_mem_nil _
  | cons x ls ih =>
    have hx : x.1 ≠ μ := by
      intro hmark
      have hlength := congrArg List.length (h ('a' :: t))
      simp [hmark] at hlength
      omega
    refine List.forall_mem_cons.mpr ⟨hx, ih (t := spelledBy (replace μ hμ []) ls) fun w => ?_⟩
    have hsame := (h w).trans (h []).symm
    simp only [spelledBy_cons, Relabelling.replace_of_ne hx] at hsame
    exact List.append_cancel_left (List.append_cancel_left hsame)

/-- A mark that is spelled in one place stands there. -/
theorem exists_mark {ls : List (List Char × List Char)} {front back : List Char}
    (h : ∀ w, spelledBy (replace μ hμ w) ls = front ++ (w ++ back)) :
    ∃ ls₁ s ls₂, ls = ls₁ ++ (μ, s) :: ls₂ ∧ Unmarked μ ls₁ ∧ Unmarked μ ls₂ ∧
      ∀ w, spelledBy (replace μ hμ w) ls₁ = front := by
  induction ls generalizing front with
  | nil => exact absurd (h ['a']) (by simp)
  | cons x ls ih =>
    obtain ⟨leading, s⟩ := x
    by_cases hmark : leading = μ
    · subst hmark
      simp only [spelledBy_cons, Relabelling.replace_self] at h
      obtain rfl : front = [] := by
        cases front with
        | nil => rfl
        | cons y front =>
          have hy (c : Char) : c = y := (List.cons.inj (h [c])).1
          exact absurd ((hy 'a').trans (hy 'b').symm) (by decide)
      have hback (w : List Char) : s ++ spelledBy (replace leading hμ w) ls = back :=
        List.append_cancel_left (h w)
      exact ⟨[], s, ls, rfl, List.forall_mem_nil _, unmarked_of_forall fun w =>
        List.append_cancel_left ((hback w).trans (hback []).symm), fun _ => rfl⟩
    · simp only [spelledBy_cons, Relabelling.replace_of_ne hmark, ← List.append_assoc leading] at h
      obtain ⟨more, rfl⟩ := eq_append_of_forall h
      obtain ⟨ls₁, s', ls₂, rfl, h₁, h₂, hspelled⟩ := ih fun w =>
        List.append_cancel_left ((h w).trans (List.append_assoc _ _ _))
      refine ⟨(leading, s) :: ls₁, s', ls₂, rfl, List.forall_mem_cons.mpr ⟨hmark, h₁⟩, h₂,
        fun w => ?_⟩
      simp [Relabelling.replace_of_ne hmark, hspelled]

end Marks

/-! ### Sources -/

section Sources

variable {cs after body l₁ l₂ : List Char} {ts ts₁ ts₂ : List Token} {t : Token} {root : Node}

open Relabelling (replace)

theorem relabel_replace_tokens {μ l : List Char} {hμ : μ ≠ []} (h : ∀ u ∈ ts, u.leading ≠ μ) :
    relabel (replace μ hμ l) ts = ts := by
  refine (List.map_congr_left fun u hu => ?_).trans (List.map_id ts)
  exact congrArg (fun l => { u with leading := l }) (Relabelling.replace_of_ne (h u hu))

/-- The parts of a file have the shapes of their kinds. -/
theorem sound_of_fileNode {depth : Nat} {rest : List Token} (hts : Sound ts)
    (h : (fileNode (grammar depth)).run ts = some (root, rest)) :
    ∃ cs, root = .branch .sourceFile cs ∧ Sound cs :=
  ((relabels_fileNode (uniform_grammar (φ := ⟨id, rfl⟩) depth) ts hts).2 root rest h).1

/-- Another text can precede a token without a change to the tree but in that place, unless it lies
inside a type or a key. -/
theorem exists_alike {depth : Nat} (hsound : Sound (ts₁ ++ t :: ts₂))
    (hrun : (fileNode (grammar depth)).run (ts₁ ++ t :: ts₂) = some (root, []))
    (hsevers : root.severs (spell ts₁).length = false) (l : List Char) :
    ∃ root', (fileNode (grammar depth)).run (ts₁ ++ { t with leading := l } :: ts₂) =
      some (root', []) ∧ Node.Alike root root' := by
  -- a mark that is longer than what precedes the other tokens
  let μ : List Char := ' ' :: ((ts₁ ++ ts₂).map (·.leading)).flatten
  have hμ : μ ≠ [] := List.cons_ne_nil _ _
  have hother : ∀ u ∈ ts₁ ++ ts₂, u.leading ≠ μ := by
    intro u hu heq
    have hle := (List.sublist_flatten_of_mem (List.mem_map_of_mem (f := (·.leading)) hu)).length_le
    rw [heq, List.length_cons] at hle
    omega
  obtain ⟨h₁, h₂⟩ := List.forall_mem_append.mp hother
  let marked := ts₁ ++ { t with leading := μ } :: ts₂
  have hmarked (w : List Char) :
      relabel (replace μ hμ w) marked = ts₁ ++ { t with leading := w } :: ts₂ := by
    rw [relabel_append, relabel_cons, relabel_replace_tokens h₁, relabel_replace_tokens h₂]
    exact congrArg (fun w => ts₁ ++ { t with leading := w } :: ts₂) Relabelling.replace_self
  have hsound' : Sound marked := by
    obtain ⟨hsound₁, hsound₂⟩ := (sound_append _ _).mp hsound
    exact (sound_append _ _).mpr ⟨hsound₁, (sound_cons _ _).mpr ((sound_cons t ts₂).mp hsound₂)⟩
  have hruns (w : List Char) :
      (fileNode (grammar depth)).run (ts₁ ++ { t with leading := w } :: ts₂) =
        ((fileNode (grammar depth)).run marked).map
          (Prod.map (relabel (replace μ hμ w)) (relabel (replace μ hμ w))) := by
    rw [← hmarked]
    exact (relabels_fileNode (uniform_grammar depth) marked hsound').1
  obtain ⟨⟨root₀, rest⟩, hrun₀, heq⟩ :=
    Option.map_eq_some_iff.mp ((hruns t.leading).symm.trans hrun)
  obtain ⟨hroot, hrest⟩ := Prod.mk.inj heq
  obtain rfl : rest = [] := relabel_eq_nil_iff.mp hrest
  obtain ⟨cs, rfl, hcs⟩ := sound_of_fileNode hsound' hrun₀
  have hrun' (w : List Char) : (fileNode (grammar depth)).run
      (ts₁ ++ { t with leading := w } :: ts₂) =
        some (relabel (replace μ hμ w) (.branch .sourceFile cs), []) := by
    rw [hruns, hrun₀]
    rfl
  -- the tree spells the mark once, behind what precedes the token
  have hspelled (w : List Char) : spelledBy (replace μ hμ w) (Node.leavesOf cs) =
      spell ts₁ ++ (w ++ (t.text ++ spell ts₂)) := by
    have hspell := spells_fileNode (faithful_grammar depth) _ _ _ (hrun' w)
    rw [relabel_branch, spell_branch] at hspell
    have htext : spell (relabel (replace μ hμ w) cs) =
        spelledBy (replace μ hμ w) (Node.leavesOf cs) :=
      (spell_branch .sourceFile _).symm.trans (Node.fullTextOf_relabel cs)
    simpa [htext] using hspell.symm
  obtain ⟨front, s, back, hleaves, hfront, hback, hlength⟩ := exists_mark hspelled
  refine ⟨_, hrun' l, ?_⟩
  rw [← hroot] at hsevers ⊢
  rw [relabel_branch] at hsevers ⊢
  rw [relabel_branch]
  rw [← hlength t.leading] at hsevers
  exact .branch _ trivial trivial
    (Node.alikeParts_of_leaves cs hcs hleaves hfront hback hsevers)

/-- Phrases that are alike make trees of files that are. -/
theorem Node.Alike.ofFile {n n' : Node} (h : Alike n n') (hk : ∀ cs, n.kind.Admits cs)
    (behind behind' : List Char) : Alike (n.ofFile behind) (n'.ofFile behind') := by
  have hparts : AlikeParts n.parts n'.parts := by
    cases h with
    | leaf => exact .nil
    | branch k _ _ hcs => exact hcs
  have hkind : n.kind = n'.kind := by
    cases h <;> rfl
  rw [Node.ofFile, Node.ofFile, ← hkind]
  exact .branch _ (hk _) (hk _) ((hparts.withComments none none).append_comments _ _)

/-- A comment between two tokens, not inside a type and not inside a key, changes nothing else in
the tree of a source. -/
theorem Boundary.parse?_blockComment (h : Boundary cs after ts₁ t ts₂ l₁ l₂)
    (hclosed : opensComment ts₁ = false) (hbody : IsBody body) (hline : '\n' ∉ body)
    (hroot : phraseTree? (cs ++ after) = some root)
    (hsevers : root.severs (spell ts₁).length = false) :
    ∃ tree tree', parse? (cs ++ after) = some tree ∧
      parse? (cs ++ (blockComment body ++ after)) = some tree' ∧ tree.Alike tree' := by
  obtain ⟨ts, hts, hrun⟩ := Option.bind_eq_some_iff.mp hroot
  obtain rfl := Option.some.inj (h.tokens.symm.trans hts)
  split at hrun
  · rename_i hfile
    cases hrun
    obtain ⟨root', hrun', halike⟩ := exists_alike (forall_mem_tokens? hts) hfile hsevers
      (l₁ ++ (blockComment body ++ l₂))
    obtain ⟨parts, rfl, -⟩ := sound_of_fileNode (forall_mem_tokens? hts) hfile
    have hlength : (ts₁ ++ { t with leading := l₁ ++ (blockComment body ++ l₂) } :: ts₂).length =
        (ts₁ ++ t :: ts₂).length := by simp
    have hroot' : phraseTree? (cs ++ (blockComment body ++ after)) = some root' := by
      refine Option.bind_eq_some_iff.mpr ⟨_, h.tokens?_blockComment hclosed hbody hline, ?_⟩
      rw [hlength, hrun']
    rw [parse?, parse?, hroot, hroot']
    exact ⟨_, _, rfl, rfl, halike.ofFile (fun _ => trivial) _ _⟩
  · exact nomatch hrun

/-- A tree of a source is like itself: it has the shapes of its kinds. -/
theorem alike_self_of_parse? (h : parse? cs = some root) : root.Alike root := by
  obtain ⟨phrases, hphrases, rfl⟩ := Option.map_eq_some_iff.mp h
  obtain ⟨ts, depth, hts, hrun⟩ := exists_tokens_of_phraseTree? hphrases
  obtain ⟨parts, rfl, hparts⟩ := sound_of_fileNode (forall_mem_tokens? hts) hrun
  have hself : Node.Alike (.branch .sourceFile parts) (.branch .sourceFile parts) :=
    .branch _ trivial trivial (.refl parts hparts)
  exact hself.ofFile (fun _ => trivial) _ _

end Sources

end ProviderCatalog.Go
