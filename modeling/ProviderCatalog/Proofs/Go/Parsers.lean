import ProviderCatalog.Go.Grammar.Basic
import Mathlib.Data.List.Basic

/-!
# What parsers take and make

A parser takes tokens and makes a tree of them. It spells what it takes if the result, whatever it
is, spells exactly the tokens that are gone, with the blanks and comments in front of each. The
statement is carried along a parser from its first part to its last: what was spelled before, put in
front of what is left, stays the same.

## Main definitions

* `Spelled`, `spell`: data that spell a part of a source.
* `Spells`: a parser that makes of a text spelled before and the tokens that it takes something that
  spells both.
* `Looks`: a parser that takes nothing and makes something with a property.
* `Grammar.Faithful`: a grammar whose parsers spell what they take.

## Main results

* `Spells.bindFrom`, `Spells.look`, `Spells.orElse`: the parts of a parser.
* `spells_take`, `spells_many`, `spells_phrase` and the like: the basic parsers.
-/

namespace ProviderCatalog.Go

/-! ### Spelling -/

/-- Data that spell a part of a source. -/
class Spelled (α : Type) where
  /-- The part of the source, with what precedes its first token. -/
  spell : α → List Char

export Spelled (spell)

variable {α β : Type}

section Spelling

variable [Spelled α] [Spelled β]

instance : Spelled Token := ⟨fun t => t.leading ++ t.text⟩
instance : Spelled Node := ⟨Node.fullText⟩
instance : Spelled Role := ⟨fun _ => []⟩
instance : Spelled Unit := ⟨fun _ => []⟩
instance : Spelled (α × β) := ⟨fun x => spell x.1 ++ spell x.2⟩
instance : Spelled (List α) := ⟨fun xs => xs.flatMap spell⟩

@[simp] theorem spell_token (t : Token) : spell t = t.leading ++ t.text := rfl

@[simp] theorem spell_role (r : Role) : spell r = [] := rfl

@[simp] theorem spell_unit (u : Unit) : spell u = [] := rfl

@[simp] theorem spell_pair (x : α × β) : spell x = spell x.1 ++ spell x.2 := rfl

@[simp] theorem spell_nil : spell ([] : List α) = [] := rfl

@[simp] theorem spell_cons (x : α) (xs : List α) : spell (x :: xs) = spell x ++ spell xs :=
  List.flatMap_cons

@[simp] theorem spell_append (xs ys : List α) : spell (xs ++ ys) = spell xs ++ spell ys :=
  List.flatMap_append

@[simp] theorem spell_flatten (xss : List (List α)) : spell xss.flatten = spell xss := by
  induction xss with
  | nil => rfl
  | cons xs xss ih => rw [List.flatten_cons, spell_append, ih, spell_cons]

@[simp] theorem spell_leaf (k : Kind) (leading text : List Char) :
    spell (Node.leaf k leading text) = leading ++ text := rfl

@[simp] theorem spell_branch (k : Kind) (cs : Parts) : spell (Node.branch k cs) = spell cs := by
  change Node.fullTextOf cs = spell cs
  induction cs with
  | nil => rfl
  | cons c cs ih => rw [Node.fullTextOf, ih]; rfl

end Spelling

/-! ### Parsers -/

/-- From the given tokens, a parser that succeeds makes something that spells what was spelled
before it and the tokens that it takes. -/
def SpellsFrom [Spelled α] (ts : List Token) (before : List Char) (p : Parser α) : Prop :=
  ∀ x ts', p.run ts = some (x, ts') → before ++ spell ts = spell x ++ spell ts'

/-- Whatever the tokens are, what a parser makes spells what was spelled before it and the tokens
that it takes. -/
def Spells [Spelled α] (before : List Char) (p : Parser α) : Prop :=
  ∀ ts, SpellsFrom ts before p

/-- A parser takes nothing and makes something with a property. -/
def Looks (p : Parser α) (P : α → Prop) : Prop :=
  ∀ ts x ts', p.run ts = some (x, ts') → ts' = ts ∧ P x

variable {p q : Parser α} {f : α → Parser β} {P : α → Prop} {Q : β → Prop} {before : List Char}

theorem run_bind_eq_some {ts ts' : List Token} {b : β} (h : (p >>= f).run ts = some (b, ts')) :
    ∃ a ts₁, p.run ts = some (a, ts₁) ∧ (f a).run ts₁ = some (b, ts') := by
  obtain ⟨⟨a, ts₁⟩, ha, hb⟩ := Option.bind_eq_some_iff.mp h
  exact ⟨a, ts₁, ha, hb⟩

theorem run_orElse_eq_some {ts ts' : List Token} {a : α} (h : (p <|> q).run ts = some (a, ts')) :
    p.run ts = some (a, ts') ∨ q.run ts = some (a, ts') := by
  change (p.run ts).orElse (fun _ => q.run ts) = _ at h
  cases hp : p.run ts with
  | none => exact .inr (by rwa [hp] at h)
  | some r => exact .inl (by rwa [hp] at h)

namespace Looks

theorem pure {a : α} (h : P a) : Looks (pure a) P := by
  intro ts x ts' hrun
  cases hrun
  exact ⟨rfl, h⟩

theorem bind (hp : Looks p P) (hf : ∀ a, P a → Looks (f a) Q) : Looks (p >>= f) Q := by
  intro ts b ts' h
  obtain ⟨a, ts₁, ha, hb⟩ := run_bind_eq_some h
  obtain ⟨rfl, hP⟩ := hp ts a ts₁ ha
  exact hf a hP _ b ts' hb

end Looks

theorem looks_get : Looks (get : Parser (List Token)) fun _ => True := by
  intro ts x ts' h
  cases h
  exact ⟨rfl, trivial⟩

theorem looks_peek : Looks peek fun _ => True := .bind looks_get fun _ _ => .pure trivial

theorem looks_nextIs (s : String) : Looks (nextIs s) fun _ => True :=
  .bind looks_peek fun _ _ => .pure trivial

theorem looks_continuesWith (lineFeedEnds : Bool) (s : String) :
    Looks (continuesWith lineFeedEnds s) fun _ => True :=
  .bind looks_peek fun _ _ => .pure trivial

theorem looks_nextAre (ss : List String) : Looks (nextAre ss) fun _ => True :=
  .bind looks_get fun _ _ => .pure trivial

theorem SpellsFrom.ite [Spelled α] {ts : List Token} {c : Prop} [Decidable c]
    (hp : SpellsFrom ts before p) (hq : SpellsFrom ts before q) :
    SpellsFrom ts before (if c then p else q) := by
  split
  · exact hp
  · exact hq

namespace Spells

variable [Spelled α] [Spelled β]

/-- The first part of a sequence need not spell all that was spelled before it: what it leaves out
stays in front. -/
theorem bindFrom {near : List Char} (hp : Spells near p)
    (hf : ∀ a, Spells (before ++ spell a) (f a)) : Spells (before ++ near) (p >>= f) := by
  intro ts b ts' h
  obtain ⟨a, ts₁, ha, hb⟩ := run_bind_eq_some h
  rw [List.append_assoc, hp ts a ts₁ ha, ← List.append_assoc]
  exact hf a ts₁ b ts' hb

theorem bind (hp : Spells [] p) (hf : ∀ a, Spells (before ++ spell a) (f a)) :
    Spells before (p >>= f) :=
  List.append_nil before ▸ bindFrom hp hf

theorem andThen (hp : Spells before p) (hf : ∀ a, Spells (spell a) (f a)) :
    Spells before (p >>= f) :=
  show Spells ([] ++ before) (p >>= f) from bindFrom hp hf

omit [Spelled α] in
theorem look (hp : Looks p P) (hf : ∀ a, P a → Spells before (f a)) : Spells before (p >>= f) := by
  intro ts b ts' h
  obtain ⟨a, ts₁, ha, hb⟩ := run_bind_eq_some h
  obtain ⟨rfl, hP⟩ := hp ts a ts₁ ha
  exact hf a hP _ b ts' hb

/-- The token that comes next is known to what follows. -/
theorem ofPeek {f : Option Token → Parser β} (hnone : Spells before (f none))
    (hsome : ∀ t ts, SpellsFrom (t :: ts) before (f (some t))) : Spells before (peek >>= f)
  | [] => hnone []
  | t :: ts => hsome t ts

theorem pure {a : α} (h : spell a = before) : Spells before (pure a : Parser α) := by
  intro ts x ts' hrun
  cases hrun
  rw [h]

omit [Spelled α] in
theorem pure_bind {a : α} (h : Spells before (f a)) :
    Spells before ((Pure.pure a : Parser α) >>= f) := h

theorem failure : Spells before (failure : Parser α) := fun _ _ _ h => nomatch h

omit [Spelled α] in
theorem failure_bind : Spells before ((Alternative.failure : Parser α) >>= f) :=
  fun _ _ _ h => nomatch h

theorem orElse (hp : Spells before p) (hq : Spells before q) : Spells before (p <|> q) := by
  intro ts x ts' h
  rcases run_orElse_eq_some h with h | h
  · exact hp ts x ts' h
  · exact hq ts x ts' h

theorem ite {c : Prop} [Decidable c] (hp : Spells before p) (hq : Spells before q) :
    Spells before (if c then p else q) :=
  fun ts => .ite (hp ts) (hq ts)

end Spells

/-! ### Basic parsers -/

theorem spells_take (k : Kind) : Spells [] (take k) := by
  intro ts x ts' h
  cases ts with
  | nil => exact nomatch h
  | cons t ts =>
    cases h
    simp

theorem spells_token (k : Kind) (s : String) : Spells [] (token k s) :=
  .look (looks_nextIs s) fun _ _ => .ite (spells_take k) .failure

theorem spells_mark (s : String) : Spells [] (mark s) :=
  .bind (spells_token _ s) fun _ => .pure (by simp)

theorem spells_optionalMark (s : String) : Spells [] (optionalMark s) :=
  .look (looks_nextIs s) fun _ _ =>
    .ite (.bind (spells_mark s) fun _ => .pure (by simp)) (.pure rfl)

theorem spells_name (k : Kind) : Spells [] (name k) :=
  .look looks_peek fun _ _ => .ite (spells_take k) .failure

theorem spells_modify {f : List Token → List Token} (h : ∀ ts, spell (f ts) = spell ts) :
    Spells [] (modify f : Parser Unit) := by
  intro ts x ts' hrun
  cases hrun
  simp [h]

theorem spells_terminator : Spells [] terminator := by
  refine .look looks_peek fun t _ => ?_
  cases t with
  | none => exact .failure
  | some t =>
    -- a line feed that ends a statement stays in front of the next token
    refine .ite (.bind (spells_modify fun ts => ?_) fun _ => .pure rfl)
      (.ite (.bind (spells_take _) fun _ => .pure (by simp)) .failure)
    cases ts <;> rfl

section Repetition

variable [Spelled α]

theorem spells_manyFrom (hp : Spells [] p) (fuel : Nat) : Spells [] (manyFrom p fuel) := by
  induction fuel with
  | zero => exact .pure rfl
  | succ fuel ih =>
    exact .orElse (.bind hp fun _ => .bind ih fun _ => .pure (by simp)) (.pure rfl)

theorem spells_many (hp : Spells [] p) : Spells [] (many p) :=
  .look looks_get fun _ _ => spells_manyFrom hp _

end Repetition

theorem spells_inRole (r : Role) {p : Parser Node} (hp : Spells before p) :
    Spells before (inRole r p) :=
  .andThen hp fun _ => .pure (by simp)

theorem spells_phrase (k : Kind) {p : Parser Parts} (hp : Spells before p) :
    Spells before (phrase k p) :=
  .andThen hp fun _ => .pure (by simp)

section Lists

variable {p : Parser Parts} (hp : Spells [] p)

include hp

theorem spells_orNothing : Spells [] (orNothing p) := .orElse hp (.pure rfl)

theorem spells_separatedTail (lineFeedEnds : Bool) (sep : String) :
    Spells [] (separatedTail lineFeedEnds sep p) := by
  refine .bind (spells_many ?_) fun _ => .pure (by simp)
  exact .look (looks_continuesWith _ _) fun _ _ =>
    .ite (.bind (spells_mark sep) fun _ => .bind hp fun _ => .pure (by simp)) .failure_bind

theorem spells_separatedOn (lineFeedEnds : Bool) (sep : String) :
    Spells [] (separatedOn lineFeedEnds sep p) :=
  .bind hp fun _ => .bind (spells_separatedTail hp lineFeedEnds sep) fun _ => .pure (by simp)

theorem spells_separated (sep : String) : Spells [] (separated sep p) :=
  spells_separatedOn hp false sep

end Lists

/-! ### Grammars -/

/-- The parsers of a grammar spell what they take. -/
structure Grammar.Faithful (g : Grammar) : Prop where
  expression (c : Context) : Spells [] (g.expression c)
  unary (c : Context) : Spells [] (g.unary c)
  type (lineFeedEnds : Bool) : Spells [] (g.type lineFeedEnds)
  statement : Spells [] g.statement
  block : Spells [] g.block
  ifStatement : Spells [] g.ifStatement
  literalValue : Spells [] g.literalValue

theorem Grammar.faithful_empty : Grammar.empty.Faithful where
  expression _ := .failure
  unary _ := .failure
  type _ := .failure
  statement := .failure
  block := .failure
  ifStatement := .failure
  literalValue := .failure

end ProviderCatalog.Go
