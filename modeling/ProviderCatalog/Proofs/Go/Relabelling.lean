import ProviderCatalog.Proofs.Go.Phrases

/-!
# Trees of sources that differ in blanks and comments

What a parser takes and how it puts it together depends on the texts of the tokens and on the line
feeds in front of them, but not on the blanks and comments in front of them. If these are replaced
in the tokens, then a parser takes as many tokens as before and makes the same tree with the same
replacements. What it makes has the shape that its kind says: tokens stand for what only tokens can
stand for, and some roles are played only by tokens, types or named nodes.

## Main definitions

* `Relabelling`: replacements of what precedes tokens.
* `Labelled`, `relabel`, `Sound`: data that hold tokens, with replacements, and in the shapes that
  parsers make.
* `Relabels`: a parser that makes the same of relabelled tokens, up to relabelling.
* `Grammar.Uniform`: a grammar whose parsers do so.

## Main results

* `Relabels.bind`, `Relabels.look`, `Relabels.peek`, `Relabels.orElse`: the parts of a parser.
* `relabels_take`, `relabels_many`, `relabels_phrase` and the like: the basic parsers.
-/

namespace ProviderCatalog.Go

/-! ### Shapes -/

/-- The kinds of types. -/
def typeKinds : List Kind := [
  .typeIdentifier, .genericType, .typeElement, .qualifiedType, .pointerType, .structType,
  .interfaceType, .arrayType, .implicitLengthArrayType, .sliceType, .mapType, .channelType,
  .functionType, .negatedType, .parenthesizedType]

/-- Whether a node is a type. -/
def Node.isType (n : Node) : Bool := typeKinds.contains n.kind

/-- Whether a node is named and no comment. -/
def Node.IsPhrase (n : Node) : Prop := n.isNamed = true ∧ n.isComment = false

theorem Node.isPhrase_of_isType {n : Node} (h : n.isType = true) : n.IsPhrase := by
  have hkinds : ∀ k ∈ typeKinds, (k != .mark) = true ∧ (k == .comment) = false := by decide
  exact hkinds n.kind (List.contains_iff_mem.mp h)

/-- What the parts of a phrase of a kind are. No phrase has a kind of tokens. -/
def Kind.Admits : Kind → Parts → Prop
  | keyedElement, cs => (cs.map (·.1)).head? = some .key
  | parameterList, cs => ∃ leading rest, cs = (.part, .leaf .mark leading ['(']) :: rest
  | mark, _ | comment, _ | dot, _ | blankIdentifier, _ | identifier, _ | typeIdentifier, _
  | fieldIdentifier, _ | packageIdentifier, _ | labelName, _ | intLiteral, _ | floatLiteral, _
  | imaginaryLiteral, _ | runeLiteral, _ | rawStringLiteral, _ | interpretedStringLiteral, _
  | nil, _ | true, _ | false, _ | iota, _ => False
  | _, _ => True

/-- Whether a node is a token. -/
def Node.IsToken : Node → Prop
  | leaf _ _ _ => True
  | branch _ _ => False

/-- Which nodes can play a role. -/
def Role.Fits : Role → Node → Prop
  | name, n | field, n | operator, n => n.IsToken
  | key, n => n.IsPhrase
  | result, n => n.isType = true ∨ n.kind = .parameterList
  | _, _ => True

/-! ### Replacements -/

/-- A replacement of what precedes tokens, where nothing stays nothing. -/
structure Relabelling where
  toFun : List Char → List Char
  map_nil : toFun [] = []

instance : CoeFun Relabelling fun _ => List Char → List Char := ⟨Relabelling.toFun⟩

/-- Data that hold tokens. -/
class Labelled (α : Type) where
  /-- The data with what precedes each token replaced. -/
  relabel : Relabelling → α → α
  /-- The tokens are not empty, and the phrases have the shapes of their kinds. -/
  Sound : α → Prop

export Labelled (relabel Sound)

namespace Node

mutual

/-- A tree with what precedes each token replaced. -/
def relabelled (φ : Relabelling) : Node → Node
  | leaf k leading text => leaf k (φ leading) text
  | branch k cs => branch k (relabelledParts φ cs)

/-- Neighbouring trees with what precedes each token replaced. -/
def relabelledParts (φ : Relabelling) : List (Role × Node) → List (Role × Node)
  | [] => []
  | (r, n) :: cs => (r, relabelled φ n) :: relabelledParts φ cs

end

mutual

/-- The tokens of a tree are not empty, and its phrases have parts and the shapes of their kinds. -/
def IsSound : Node → Prop
  | leaf _ _ text => text ≠ []
  | branch k cs => k.Admits cs ∧ cs ≠ [] ∧ AreSound cs

/-- Neighbouring trees are sound and play roles that fit them. -/
def AreSound : List (Role × Node) → Prop
  | [] => True
  | (r, n) :: cs => (r.Fits n ∧ IsSound n) ∧ AreSound cs

end

end Node

variable {α β : Type} {φ : Relabelling}

instance : Labelled Token := ⟨fun φ t => { t with leading := φ t.leading }, fun t => t.text ≠ []⟩
instance : Labelled Node := ⟨Node.relabelled, Node.IsSound⟩
instance : Labelled Bool := ⟨fun _ b => b, fun _ => True⟩
instance : Labelled Unit := ⟨fun _ u => u, fun _ => True⟩
instance : Labelled (Role × Node) :=
  ⟨fun φ c => (c.1, relabel φ c.2), fun c => c.1.Fits c.2 ∧ Sound c.2⟩

section Data

variable [Labelled α] [Labelled β]

instance : Labelled (List α) := ⟨fun φ => List.map (relabel φ), fun xs => ∀ x ∈ xs, Sound x⟩
instance : Labelled (Option α) := ⟨fun φ => Option.map (relabel φ), fun x => ∀ a ∈ x, Sound a⟩

@[simp] theorem relabel_nil : relabel φ ([] : List α) = [] := rfl

@[simp] theorem relabel_cons (x : α) (xs : List α) :
    relabel φ (x :: xs) = relabel φ x :: relabel φ xs := rfl

@[simp] theorem relabel_append (xs ys : List α) :
    relabel φ (xs ++ ys) = relabel φ xs ++ relabel φ ys := List.map_append

@[simp] theorem relabel_reverse (xs : List α) :
    relabel φ xs.reverse = (relabel φ xs).reverse := List.map_reverse

@[simp] theorem relabel_flatten (xss : List (List α)) :
    relabel φ xss.flatten = (relabel φ xss).flatten := List.map_flatten

@[simp] theorem length_relabel (xs : List α) : (relabel φ xs).length = xs.length :=
  List.length_map _

@[simp] theorem isEmpty_relabel (xs : List α) : (relabel φ xs).isEmpty = xs.isEmpty :=
  List.isEmpty_map

@[simp] theorem sound_nil : Sound ([] : List α) := List.forall_mem_nil _

@[simp] theorem sound_cons (x : α) (xs : List α) : Sound (x :: xs) ↔ Sound x ∧ Sound xs :=
  List.forall_mem_cons

@[simp] theorem sound_append (xs ys : List α) : Sound (xs ++ ys) ↔ Sound xs ∧ Sound ys :=
  List.forall_mem_append

@[simp] theorem sound_flatten (xss : List (List α)) : Sound xss.flatten ↔ Sound xss := by
  simp only [Sound, List.mem_flatten]
  exact ⟨fun h xs hxs x hx => h x ⟨xs, hxs, hx⟩, fun h x ⟨xs, hxs, hx⟩ => h xs hxs x hx⟩

@[simp] theorem sound_reverse (xs : List α) : Sound xs.reverse ↔ Sound xs := by
  simp [Sound]

end Data

@[simp] theorem relabel_part (r : Role) (n : Node) : relabel φ (r, n) = (r, relabel φ n) := rfl

@[simp] theorem relabel_leaf (k : Kind) (leading text : List Char) :
    relabel φ (Node.leaf k leading text) = .leaf k (φ leading) text := rfl

@[simp] theorem relabel_branch (k : Kind) (cs : Parts) :
    relabel φ (Node.branch k cs) = .branch k (relabel φ cs) := by
  change Node.branch k (Node.relabelledParts φ cs) = _
  congr 1
  induction cs with
  | nil => rfl
  | cons c cs ih => rw [Node.relabelledParts, ih]; rfl

@[simp] theorem sound_part (r : Role) (n : Node) : Sound (r, n) ↔ r.Fits n ∧ Sound n := Iff.rfl

@[simp] theorem sound_leaf (k : Kind) (leading text : List Char) :
    Sound (Node.leaf k leading text) ↔ text ≠ [] := Iff.rfl

@[simp] theorem sound_branch (k : Kind) (cs : Parts) :
    Sound (Node.branch k cs) ↔ k.Admits cs ∧ cs ≠ [] ∧ Sound cs := by
  change k.Admits cs ∧ cs ≠ [] ∧ Node.AreSound cs ↔ _
  refine and_congr_right' (and_congr_right' ?_)
  induction cs with
  | nil => exact iff_of_true trivial sound_nil
  | cons c cs ih => rw [Node.AreSound, sound_cons, ih]; rfl

@[simp] theorem kind_relabel (n : Node) : (relabel φ n).kind = n.kind := by
  cases n <;> rfl

@[simp] theorem isNamed_relabel (n : Node) : (relabel φ n).isNamed = n.isNamed := by
  rw [Node.isNamed, kind_relabel, Node.isNamed]

@[simp] theorem isComment_relabel (n : Node) : (relabel φ n).isComment = n.isComment := by
  rw [Node.isComment, kind_relabel, Node.isComment]

@[simp] theorem isType_relabel (n : Node) : (relabel φ n).isType = n.isType := by
  rw [Node.isType, kind_relabel, Node.isType]

theorem relabel_eq_leaf_iff {n : Node} {k : Kind} {leading text : List Char} :
    relabel φ n = .leaf k leading text ↔ ∃ l, n = .leaf k l text ∧ φ l = leading := by
  cases n with
  | leaf k' l t => simp [and_assoc, and_comm]
  | branch k' cs => simp

theorem relabel_eq_branch_iff {n : Node} {k : Kind} {cs : Parts} :
    relabel φ n = .branch k cs ↔ ∃ cs', n = .branch k cs' ∧ relabel φ cs' = cs := by
  cases n with
  | leaf k' l t => simp
  | branch k' cs' => simp [and_comm]

theorem relabel_eq_part_iff {c : Role × Node} {r : Role} {n : Node} :
    relabel φ c = (r, n) ↔ ∃ n', c = (r, n') ∧ relabel φ n' = n := by
  obtain ⟨r', n'⟩ := c
  simp [and_comm]

theorem relabel_eq_nil_iff [Labelled α] {xs : List α} : relabel φ xs = [] ↔ xs = [] :=
  List.map_eq_nil_iff

theorem relabel_eq_cons_iff [Labelled α] {xs ys : List α} {y : α} :
    relabel φ xs = y :: ys ↔ ∃ x xs', xs = x :: xs' ∧ relabel φ x = y ∧ relabel φ xs' = ys :=
  List.map_eq_cons_iff

/-! ### Parsers -/

/-- A parser makes of relabelled tokens what another makes of the tokens, relabelled, and what it
makes has a property. -/
def Relabels [Labelled α] (φ : Relabelling) (P : α → Prop) (p p' : Parser α) : Prop :=
  ∀ ts, Sound ts → p'.run (relabel φ ts) = (p.run ts).map (Prod.map (relabel φ) (relabel φ)) ∧
    ∀ x ts', p.run ts = some (x, ts') → P x ∧ Sound ts'

namespace Relabels

variable [Labelled α] [Labelled β] {p p' q q' : Parser α} {f f' : α → Parser β} {P P' : α → Prop}
  {Q : β → Prop}

theorem imp (hp : Relabels φ P p p') (h : ∀ a, P a → P' a) : Relabels φ P' p p' :=
  fun ts hts => (hp ts hts).imp_right fun hmade x ts' hrun => (hmade x ts' hrun).imp_left (h x)

theorem bind (hp : Relabels φ P p p') (hf : ∀ a, P a → Relabels φ Q (f a) (f' (relabel φ a))) :
    Relabels φ Q (p >>= f) (p' >>= f') := by
  intro ts hts
  obtain ⟨heq, hmade⟩ := hp ts hts
  change (p'.run (relabel φ ts)).bind (fun x => (f' x.1).run x.2) =
    ((p.run ts).bind fun x => (f x.1).run x.2).map _ ∧
      ∀ x ts', ((p.run ts).bind fun x => (f x.1).run x.2) = some (x, ts') → _
  rw [heq]
  cases h : p.run ts with
  | none => exact ⟨rfl, nofun⟩
  | some x =>
    obtain ⟨hP, hsound⟩ := hmade x.1 x.2 h
    exact hf x.1 hP x.2 hsound

theorem pure {a a' : α} (h : a' = relabel φ a) (ha : P a) :
    Relabels φ P (Pure.pure a) (Pure.pure a') := by
  intro ts hts
  refine ⟨by rw [h]; rfl, fun x ts' hrun => ?_⟩
  cases hrun
  exact ⟨ha, hts⟩

omit [Labelled α] in
theorem pure_bind {a a' : α} (h : Relabels φ Q (f a) (f' a')) :
    Relabels φ Q (Pure.pure a >>= f) (Pure.pure a' >>= f') := h

theorem failure : Relabels φ P (failure : Parser α) failure := fun _ _ => ⟨rfl, nofun⟩

omit [Labelled α] in
theorem failure_bind : Relabels φ Q ((Alternative.failure : Parser α) >>= f)
    ((Alternative.failure : Parser α) >>= f') := fun _ _ => ⟨rfl, nofun⟩

theorem orElse (hp : Relabels φ P p p') (hq : Relabels φ P q q') :
    Relabels φ P (p <|> q) (p' <|> q') := by
  intro ts hts
  obtain ⟨heq, hmade⟩ := hp ts hts
  change (p'.run (relabel φ ts)).orElse (fun _ => q'.run (relabel φ ts)) =
    ((p.run ts).orElse fun _ => q.run ts).map _ ∧
      ∀ x ts', (p.run ts).orElse (fun _ => q.run ts) = some (x, ts') → _
  rw [heq]
  cases h : p.run ts with
  | none => exact hq ts hts
  | some x =>
    refine ⟨rfl, fun y ts' hrun => ?_⟩
    cases hrun
    exact hmade _ _ h

theorem ite {c : Prop} [Decidable c] (hp : Relabels φ P p p') (hq : Relabels φ P q q') :
    Relabels φ P (if c then p else q) (if c then p' else q') := by
  split
  · exact hp
  · exact hq

/-- A look at the tokens tells the same of relabelled ones. -/
theorem look {p : Parser Bool} {f f' : Bool → Parser β} (hp : Relabels φ (fun _ => True) p p)
    (hf : ∀ b, Relabels φ Q (f b) (f' b)) : Relabels φ Q (p >>= f) (p >>= f') :=
  bind hp fun b _ => hf b

theorem get {f f' : List Token → Parser β}
    (hf : ∀ ts, Sound ts → Relabels φ Q (f ts) (f' (relabel φ ts))) :
    Relabels φ Q (MonadState.get >>= f) (MonadState.get >>= f') :=
  fun ts hts => hf ts hts ts hts

theorem peek {f f' : Option Token → Parser β} (hnone : Relabels φ Q (f none) (f' none))
    (hsome : ∀ t, Sound t → Relabels φ Q (f (some t)) (f' (some (relabel φ t)))) :
    Relabels φ Q (Go.peek >>= f) (Go.peek >>= f')
  | [], hts => hnone [] hts
  | t :: ts, hts => hsome t ((sound_cons t ts).mp hts).1 (t :: ts) hts

end Relabels

/-! ### Basic parsers -/

/-- A token of a kind. -/
def Node.IsTokenOf (k : Kind) (n : Node) : Prop :=
  ∃ leading text, n = .leaf k leading text ∧ text ≠ []

theorem Node.IsTokenOf.sound {k : Kind} {n : Node} (h : n.IsTokenOf k) : Sound n := by
  obtain ⟨leading, text, rfl, htext⟩ := h
  exact htext

theorem Node.IsTokenOf.isToken {k : Kind} {n : Node} (h : n.IsTokenOf k) : n.IsToken := by
  obtain ⟨leading, text, rfl, -⟩ := h
  trivial

theorem relabels_nextIs (s : String) : Relabels φ (fun _ => True) (nextIs s) (nextIs s) :=
  .peek (.pure rfl trivial) fun _ _ => .pure rfl trivial

theorem relabels_continuesWith (lineFeedEnds : Bool) (s : String) :
    Relabels φ (fun _ => True) (continuesWith lineFeedEnds s) (continuesWith lineFeedEnds s) :=
  .peek (.pure rfl trivial) fun _ _ => .pure rfl trivial

theorem relabels_nextAre (ss : List String) :
    Relabels φ (fun _ => True) (nextAre ss) (nextAre ss) := by
  refine .get fun ts _ => .pure ?_ trivial
  rw [length_relabel]
  congr 1
  change ((ts.map (relabel φ)).zip ss).all _ = (ts.zip ss).all _
  rw [List.zip_map_left, List.all_map]
  rfl

theorem relabels_take (k : Kind) : Relabels φ (Node.IsTokenOf k) (take k) (take k)
  | [], _ => ⟨rfl, nofun⟩
  | t :: ts, hts => by
    obtain ⟨ht, hts⟩ := (sound_cons t ts).mp hts
    refine ⟨rfl, fun x ts' hrun => ?_⟩
    cases hrun
    exact ⟨⟨_, _, rfl, ht⟩, hts⟩

/-- A token with the given text. -/
theorem relabels_token (k : Kind) (s : String) :
    Relabels φ (fun n => ∃ leading, n = .leaf k leading s.toList ∧ s.toList ≠ [])
      (token k s) (token k s)
  | [], _ => ⟨rfl, nofun⟩
  | t :: ts, hts => by
    obtain ⟨ht, hts⟩ := (sound_cons t ts).mp hts
    change (if t.is s then take k else failure : Parser Node).run (relabel φ (t :: ts)) =
        ((if t.is s then take k else failure : Parser Node).run (t :: ts)).map _ ∧
      ∀ x ts', (if t.is s then take k else failure : Parser Node).run (t :: ts) = some (x, ts') → _
    split
    · rename_i htext
      refine ⟨rfl, fun x ts' hrun => ?_⟩
      cases hrun
      rw [← beq_iff_eq.mp htext]
      exact ⟨⟨_, rfl, ht⟩, hts⟩
    · exact ⟨rfl, nofun⟩

theorem relabels_name (k : Kind) : Relabels φ (Node.IsTokenOf k) (name k) (name k) :=
  .peek (.ite (relabels_take k) .failure) fun _ _ => .ite (relabels_take k) .failure

/-- A mark with the given text, as a part. -/
def IsMark (s : String) (c : Role × Node) : Prop :=
  ∃ leading, c = (.part, .leaf .mark leading s.toList) ∧ s.toList ≠ []

theorem IsMark.sound {s : String} {c : Role × Node} (h : IsMark s c) : Sound c := by
  obtain ⟨leading, rfl, hs⟩ := h
  exact ⟨trivial, hs⟩

theorem relabels_mark (s : String) : Relabels φ (IsMark s) (mark s) (mark s) := by
  refine .bind (relabels_token .mark s) fun n hn => .pure rfl ?_
  obtain ⟨leading, rfl, hs⟩ := hn
  exact ⟨leading, rfl, hs⟩

theorem relabels_optionalMark (s : String) :
    Relabels φ Sound (optionalMark s) (optionalMark s) :=
  .look (relabels_nextIs s) fun _ => .ite
    (.bind (relabels_mark s) fun _ hc => .pure rfl (by simpa using hc.sound)) (.pure rfl sound_nil)

theorem relabels_splitToken {first second : String} (hfirst : first.toList ≠ [])
    (hsecond : second.toList ≠ []) :
    Relabels φ (fun _ => True) (splitToken first second) (splitToken first second)
  | [], _ => ⟨rfl, nofun⟩
  | t :: ts, hts => by
    obtain ⟨-, hts⟩ := (sound_cons t ts).mp hts
    refine ⟨?_, fun x ts' hrun => ?_⟩
    · have hnil : (⟨.symbol, [], false, second.toList⟩ : Token) =
          relabel φ ⟨.symbol, [], false, second.toList⟩ := by
        change _ = Token.mk .symbol (φ []) false second.toList
        rw [φ.map_nil]
      change some ((), _ :: (⟨.symbol, [], false, second.toList⟩ : Token) :: _) = _
      rw [hnil]
      rfl
    · cases hrun
      exact ⟨trivial, by simpa using ⟨hfirst, hsecond, hts⟩⟩

theorem relabels_modify {f : List Token → List Token}
    (hf : ∀ ts, f (relabel φ ts) = relabel φ (f ts)) (hsound : ∀ ts, Sound ts → Sound (f ts)) :
    Relabels φ (fun _ => True) (modify f : Parser Unit) (modify f) := by
  refine fun ts hts => ⟨?_, fun x ts' hrun => ?_⟩
  · change some ((), f (relabel φ ts)) = _
    rw [hf]
    rfl
  · cases hrun
    exact ⟨trivial, hsound ts hts⟩

theorem relabels_terminator : Relabels φ Sound terminator terminator := by
  refine .peek .failure fun t _ =>
    .ite ?_ (.ite (.bind (relabels_take .mark) fun n hn => ?_) .failure)
  · refine .bind (relabels_modify (fun ts => ?_) fun ts hts => ?_) fun _ _ => .pure rfl sound_nil
    · cases ts <;> rfl
    · cases ts with
      | nil => exact sound_nil
      | cons t ts => exact (sound_cons _ _).mpr ((sound_cons t ts).mp hts)
  · obtain ⟨leading, text, rfl, htext⟩ := hn
    exact .pure rfl (by simpa using ⟨trivial, htext⟩)

section Repetition

variable [Labelled α] {p p' : Parser α} {P : α → Prop}

theorem relabels_manyFrom (hp : Relabels φ P p p') (fuel : Nat) :
    Relabels φ (fun xs => ∀ x ∈ xs, P x) (manyFrom p fuel) (manyFrom p' fuel) := by
  induction fuel with
  | zero => exact .pure rfl (List.forall_mem_nil _)
  | succ fuel ih =>
    exact .orElse (.bind hp fun x hx => .bind ih fun xs hxs =>
      .pure rfl (List.forall_mem_cons.mpr ⟨hx, hxs⟩)) (.pure rfl (List.forall_mem_nil _))

theorem relabels_many (hp : Relabels φ P p p') :
    Relabels φ (fun xs => ∀ x ∈ xs, P x) (many p) (many p') := by
  refine .get fun ts _ => ?_
  rw [length_relabel]
  exact relabels_manyFrom hp _

end Repetition

/-- The parts of a phrase: at least one. -/
def SoundParts (cs : Parts) : Prop := cs ≠ [] ∧ Sound cs

@[simp] theorem soundParts_iff (cs : Parts) : SoundParts cs ↔ cs ≠ [] ∧ Sound cs := Iff.rfl

theorem Relabels.ofParts {p p' : Parser Parts} (hp : Relabels φ SoundParts p p') :
    Relabels φ Sound p p' :=
  hp.imp fun _ h => h.2

theorem relabels_inRole (r : Role) {p p' : Parser Node} {P : Node → Prop}
    (hp : Relabels φ P p p') (h : ∀ n, P n → Sound (r, n)) :
    Relabels φ SoundParts (inRole r p) (inRole r p') :=
  .bind hp fun n hn => .pure rfl ⟨List.cons_ne_nil _ _, by simpa using h n hn⟩

theorem relabels_part {p p' : Parser Node} (hp : Relabels φ Sound p p') :
    Relabels φ SoundParts (inRole .part p) (inRole .part p') :=
  relabels_inRole .part hp fun _ hn => ⟨trivial, hn⟩

theorem relabels_phrase (k : Kind) {p p' : Parser Parts} {P : Parts → Prop} {Q : Node → Prop}
    (hp : Relabels φ P p p') (h : ∀ cs, P cs → Q (.branch k cs)) :
    Relabels φ Q (phrase k p) (phrase k p') :=
  .bind hp fun cs hcs => .pure (relabel_branch k cs).symm (h cs hcs)

/-- A phrase of a kind that admits all parts. -/
theorem relabels_plainPhrase (k : Kind) {p p' : Parser Parts} (hp : Relabels φ SoundParts p p')
    (hk : ∀ cs, k.Admits cs) : Relabels φ Sound (phrase k p) (phrase k p') :=
  relabels_phrase k hp fun cs hcs => (sound_branch k cs).mpr ⟨hk cs, hcs⟩

theorem relabels_orNothing {p p' : Parser Parts} (hp : Relabels φ Sound p p') :
    Relabels φ Sound (orNothing p) (orNothing p') :=
  .orElse hp (.pure rfl sound_nil)

section Lists

variable {p p' : Parser Parts} (hp : Relabels φ SoundParts p p')

include hp

theorem relabels_separatedTail (lineFeedEnds : Bool) (sep : String) :
    Relabels φ Sound (separatedTail lineFeedEnds sep p) (separatedTail lineFeedEnds sep p') := by
  refine .bind (relabels_many (P := Sound) ?_) fun groups h =>
    .pure (relabel_flatten groups).symm ((sound_flatten groups).mpr h)
  exact .look (relabels_continuesWith _ _) fun _ => .ite
    (.bind (relabels_mark sep) fun s hs => .bind hp fun x hx =>
      .pure rfl ((sound_cons s x).mpr ⟨hs.sound, hx.2⟩)) .failure

theorem relabels_separatedOn (lineFeedEnds : Bool) (sep : String) :
    Relabels φ SoundParts (separatedOn lineFeedEnds sep p)
      (separatedOn lineFeedEnds sep p') :=
  .bind hp fun x hx => .bind (relabels_separatedTail hp lineFeedEnds sep) fun xs hxs =>
    .pure (relabel_append x xs).symm
      ⟨List.append_ne_nil_of_left_ne_nil hx.1 xs, (sound_append x xs).mpr ⟨hx.2, hxs⟩⟩

theorem relabels_separated (sep : String) :
    Relabels φ SoundParts (separated sep p) (separated sep p') :=
  relabels_separatedOn hp false sep

end Lists

/-! ### Grammars -/

/-- A type in the shape of its kind. -/
abbrev Node.IsSoundType (n : Node) : Prop := Sound n ∧ n.isType = true

/-- The parsers of a grammar make the same of relabelled tokens, up to relabelling. -/
structure Grammar.Uniform (φ : Relabelling) (g : Grammar) : Prop where
  expression (c : Context) : Relabels φ Sound (g.expression c) (g.expression c)
  unary (c : Context) : Relabels φ Sound (g.unary c) (g.unary c)
  type (lineFeedEnds : Bool) :
    Relabels φ Node.IsSoundType (g.type lineFeedEnds) (g.type lineFeedEnds)
  statement : Relabels φ Sound g.statement g.statement
  block : Relabels φ Sound g.block g.block
  ifStatement : Relabels φ Sound g.ifStatement g.ifStatement
  literalValue : Relabels φ Sound g.literalValue g.literalValue

theorem Grammar.uniform_empty : Grammar.empty.Uniform φ where
  expression _ := .failure
  unary _ := .failure
  type _ := .failure
  statement := .failure
  block := .failure
  ifStatement := .failure
  literalValue := .failure

end ProviderCatalog.Go
