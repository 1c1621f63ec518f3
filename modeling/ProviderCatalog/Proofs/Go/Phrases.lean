import ProviderCatalog.Go.Grammar.Expression
import ProviderCatalog.Proofs.Go.Parsers

/-!
# What the parsers of types and expressions take

The parsers of types, signatures and expressions spell what they take if the parsers of the phrases
inside do. Nothing is lost where names are kept back until the type that they share is known, where
an expression is read again as a type, and where a token is cut in two.

## Main results

* `spell_declarations`: the declarations of parameters.
* `spells_typeNode`: types.
* `spell_of_typeOfExpression?`: types that are spelled as expressions.
* `spellsFrom_splitting`: tokens that are cut in two.
* `spells_literalValueNode`, `spells_unaryNode`, `spells_binaryNode`: expressions.
-/

namespace ProviderCatalog.Go

/-! ### Signatures -/

instance : Spelled Parameter where
  spell
    | .bare n => spell n
    | .named n t => spell n ++ spell t
    | .typed t => spell t
    | .variadic parts => spell parts

@[simp] theorem spell_bare (n : Node) : spell (Parameter.bare n) = spell n := rfl

@[simp] theorem spell_named (n t : Node) : spell (Parameter.named n t) = spell n ++ spell t := rfl

@[simp] theorem spell_typed (t : Node) : spell (Parameter.typed t) = spell t := rfl

@[simp] theorem spell_variadic (parts : Parts) : spell (Parameter.variadic parts) = spell parts :=
  rfl

@[simp] theorem spell_asType (n : Node) : spell (asType n) = spell n := by
  cases n <;> rfl

@[simp] theorem spell_unnamed (pending : Parts) :
    spell (unnamed pending) = spell pending.reverse := by
  fun_induction unnamed pending with
  | case1 => rfl
  | case2 comma rest ih => simp [ih]
  | case3 rest r n hr ih => simp [ih]

/-- Parameters are declared in their order, those behind the names that wait for a type. -/
@[simp] theorem spell_declarations (pending : Parts) (ps : List (Parameter × Parts)) :
    spell (declarations pending ps) = spell pending.reverse ++ spell ps := by
  fun_induction declarations pending ps with
  | case1 pending => simp
  | case2 pending n comma rest ih => simp [ih]
  | case3 pending n t comma rest ih => simp [ih]
  | case4 pending t comma rest ih => simp [ih]
  | case5 pending parts comma rest ih => simp [ih]

variable {g : Grammar} (hg : g.Faithful)

section Types

include hg

theorem spells_typeElement (lineFeedEnds : Bool) : Spells [] (typeElement g lineFeedEnds) :=
  spells_phrase _ (spells_separatedOn (spells_inRole _ (hg.type lineFeedEnds)) lineFeedEnds _)

theorem spells_typeArguments : Spells [] (typeArguments g) := by
  have helements := spells_separated (spells_inRole .part (spells_typeElement hg false)) ","
  exact spells_phrase _ <| .bind (spells_mark _) fun _ => .bind helements fun _ =>
    .bind (spells_optionalMark _) fun _ => .bind (spells_mark _) fun _ => .pure (by simp)

theorem spells_namedType (lineFeedEnds : Bool) : Spells [] (namedType g lineFeedEnds) := by
  -- the arguments that can follow a type as it is spelled so far
  have harguments (base : Node) {before : List Char} (h : spell base = before) :
      Spells before (do
        if ← continuesWith lineFeedEnds "[" then
          (do
            let arguments ← typeArguments g
            return Node.branch .genericType [(Role.type, base), (Role.typeArguments, arguments)]) <|>
              return base
        else return base) :=
    .look (looks_continuesWith _ _) fun _ _ => .ite
      (.orElse (.bind (spells_typeArguments hg) fun _ => .pure (by simp [h])) (.pure h)) (.pure h)
  refine .bind (spells_name _) fun first => .look (looks_continuesWith _ _) fun _ _ => ?_
  refine .ite ?_ (.pure_bind (harguments first rfl))
  refine .bind (spells_mark _) fun dot => .bind (spells_name _) fun n => ?_
  refine .pure_bind (harguments _ ?_)
  cases first <;> simp

theorem spells_parameter : Spells [] (parameter g) := by
  refine .orElse ?variadic (.orElse ?named ?typed)
  case variadic =>
    refine .bind (.orElse (spells_inRole _ (spells_name _)) (.pure rfl)) fun _ => ?_
    exact .bind (spells_mark _) fun _ => .bind (hg.type _) fun _ => .pure (by simp)
  case named => exact .bind (spells_name _) fun _ => .bind (hg.type _) fun _ => .pure (by simp)
  case typed =>
    refine .bind (hg.type _) fun t => ?_
    split <;> exact .pure rfl

theorem spells_parameterList : Spells [] (parameterList g) := by
  refine spells_phrase _ (.bind (spells_mark _) fun l => .bind (spells_many ?_) fun ps => ?_)
  · refine .bind (spells_parameter hg) fun _ => .bind (spells_optionalMark _) fun _ => ?_
    exact .look (looks_nextIs _) fun _ _ => .ite (.pure (by simp)) .failure_bind
  · refine .ite (.bind (spells_optionalMark _) fun _ => ?_) (.pure_bind ?_)
    · exact .bind (spells_mark _) fun _ => .pure (by simp)
    · exact .bind (spells_mark _) fun _ => .pure (by simp)

theorem spells_typeParameterDeclaration : Spells [] (typeParameterDeclaration g) := by
  have hnames := spells_separated (spells_inRole .name (spells_name .identifier)) ","
  exact spells_phrase _ <| .bind hnames fun _ => .bind (spells_typeElement hg _) fun _ =>
    .pure (by simp)

theorem spells_typeParameters : Spells [] (typeParameters g) := by
  have hdeclared := spells_separated (spells_inRole .part (spells_typeParameterDeclaration hg)) ","
  exact spells_phrase _ <| .bind (spells_mark _) fun _ => .bind hdeclared fun _ =>
    .bind (spells_optionalMark _) fun _ => .bind (spells_mark _) fun _ => .pure (by simp)

/-! ### Types -/

theorem spells_fieldDeclaration : Spells [] (fieldDeclaration g) := by
  refine spells_phrase _ (.bind (.orElse ?named ?embedded) fun field => ?tag)
  case named =>
    refine .bind (spells_separated (spells_inRole _ (spells_name _)) _) fun _ => ?_
    exact .look looks_peek fun _ _ =>
      .ite .failure_bind (.bind (hg.type _) fun _ => .pure (by simp))
  case embedded =>
    exact .bind (spells_optionalMark _) fun _ => .bind (spells_namedType hg _) fun _ =>
      .pure (by simp)
  case tag =>
    have hnone : Spells ([] ++ spell field) (pure (field ++ []) : Parser Parts) := .pure (by simp)
    have htag (k : Kind) : Spells ([] ++ spell field)
        (inRole .tag (take k) >>= fun tag => pure (field ++ tag)) :=
      .bind (spells_inRole _ (spells_take k)) fun _ => .pure (by simp)
    refine .look looks_peek fun t _ => ?_
    cases t with
    | none => exact .pure_bind hnone
    | some t =>
      exact .ite (.pure_bind hnone) (.ite (htag _) (.ite (htag _) (.pure_bind hnone)))

omit hg in
theorem spells_bracedElements {p : Parser Node} (hp : Spells [] p) :
    Spells [] (bracedElements p) := by
  have hmore : Spells [] (do
      let e ← terminator
      let x ← inRole .part p
      return e ++ x) :=
    .bind spells_terminator fun _ => .bind (spells_inRole _ hp) fun _ => .pure (by simp)
  refine .bind (spells_mark _) fun _ => .bind (spells_orNothing ?_) fun _ =>
    .bind (spells_mark _) fun _ => .pure (by simp)
  exact .bind (spells_inRole _ hp) fun _ => .bind (spells_many hmore) fun _ =>
    .bind (spells_orNothing spells_terminator) fun _ => .pure (by simp)

theorem spells_result {simple : Bool → Parser Node} (hsimple : ∀ b, Spells [] (simple b))
    (lineFeedEnds : Bool) : Spells [] (result g simple lineFeedEnds) := by
  refine .look looks_peek fun t _ => ?_
  cases t with
  | none => exact .pure rfl
  | some t =>
    exact .ite (.pure rfl) (.ite (spells_inRole _ (spells_parameterList hg))
      (.ite (spells_inRole _ (hsimple _)) (.pure rfl)))

theorem spells_simpleType (lineFeedEnds : Bool) : Spells [] (simpleType g lineFeedEnds) := by
  have hprefixed (k : Kind) (s : String) : Spells [] (phrase k do
      let m ← mark s
      return [m, (Role.part, ← g.type lineFeedEnds)]) :=
    spells_phrase _ <| .bind (spells_mark _) fun _ => .bind (hg.type _) fun _ => .pure (by simp)
  refine .look looks_peek fun t _ => ?_
  cases t with
  | none => exact .failure
  | some t =>
    refine .ite (spells_namedType hg _) (.ite (hprefixed _ _) (.ite (hprefixed _ _)
      (.ite (.look (looks_nextAre _) fun _ _ => .ite ?slice ?array) (.ite ?map (.ite ?channel
        (.ite ?receiving (.ite ?function (.ite ?struct (.ite ?interface .failure)))))))))
    case slice =>
      exact spells_phrase _ <| .bind (spells_mark _) fun _ => .bind (spells_mark _) fun _ =>
        .bind (hg.type _) fun _ => .pure (by simp)
    case array =>
      exact spells_phrase _ <| .bind (spells_mark _) fun _ => .bind (hg.expression _) fun _ =>
        .bind (spells_mark _) fun _ => .bind (hg.type _) fun _ => .pure (by simp)
    case map =>
      exact spells_phrase _ <| .bind (spells_mark _) fun _ => .bind (spells_mark _) fun _ =>
        .bind (hg.type _) fun _ => .bind (spells_mark _) fun _ => .bind (hg.type _) fun _ =>
          .pure (by simp)
    case channel =>
      exact spells_phrase _ <| .bind (spells_mark _) fun _ =>
        .bind (spells_optionalMark _) fun _ => .bind (hg.type _) fun _ => .pure (by simp)
    case receiving =>
      exact spells_phrase _ <| .bind (spells_mark _) fun _ => .bind (spells_mark _) fun _ =>
        .bind (hg.type _) fun _ => .pure (by simp)
    case function =>
      exact spells_phrase _ <| .bind (spells_mark _) fun _ =>
        .bind (spells_parameterList hg) fun _ => .bind (spells_result hg hg.type _) fun _ =>
          .pure (by simp)
    case struct =>
      have hfields := spells_bracedElements (spells_fieldDeclaration hg)
      exact spells_phrase _ <| .bind (spells_mark _) fun _ =>
        .bind (spells_phrase _ hfields) fun _ => .pure (by simp)
    case interface =>
      refine spells_phrase _ (.bind (spells_mark _) fun _ => .bind
        (spells_bracedElements (.orElse ?_ (spells_typeElement hg _))) fun _ => .pure (by simp))
      exact spells_phrase _ <| .bind (spells_name _) fun _ =>
        .bind (spells_parameterList hg) fun _ => .bind (spells_result hg hg.type _) fun _ =>
          .pure (by simp)

theorem spells_typeNode (lineFeedEnds : Bool) : Spells [] (typeNode g lineFeedEnds) := by
  refine .look (looks_nextIs _) fun _ _ => .ite ?_ (spells_simpleType hg _)
  exact spells_phrase _ <| .bind (spells_mark _) fun _ => .bind (hg.type _) fun _ =>
    .bind (spells_mark _) fun _ => .pure (by simp)

end Types

/-! ### Types in the place of operands -/

/-- A type is spelled as the expression that it was read as. -/
theorem spell_of_typeOfExpression? {x t : Node} (h : typeOfExpression? x = some t) :
    spell t = spell x := by
  fun_induction typeOfExpression? x generalizing t with
  | case1 => exact nomatch h
  | case2 l s hword => cases h; rfl
  | case3 => exact nomatch h
  | case4 => cases h; simp
  | case5 r l r' n ih =>
    obtain ⟨t, ht, rfl⟩ := Option.map_eq_some_iff.mp h
    simp [ih ht]
  | case6 => cases h; simp
  | case7 => exact nomatch h
  | case8 r base l r' index close b i hi hb hgeneric ihb ihi =>
    cases h
    simp [ihb hb, ihi hi]
  | case9 => exact nomatch h
  | case10 => exact nomatch h

/-- Looking for the type of a literal takes nothing. -/
theorem looks_literalTypeOf? (c : Context) (x : Node) :
    Looks (literalTypeOf? c x) fun t => ∀ t' ∈ t, spell t' = spell x := by
  refine .bind looks_get fun ts _ => ?_
  split
  · rename_i t ht
    have hspell : ∀ t' ∈ some t, spell t' = spell x := fun t' ht' =>
      Option.mem_some.mp ht' ▸ spell_of_typeOfExpression? ht
    split
    · exact .pure nofun
    · split
      · exact .pure hspell
      · split
        · exact .pure nofun
        · split
          · exact .pure hspell
          · exact .pure nofun
  · exact .pure nofun

section Expressions

include hg

/-! ### Literals -/

theorem spells_literalElement : Spells [] (literalElement g) :=
  spells_phrase _ <| .look (looks_nextIs _) fun _ _ =>
    .ite (spells_inRole _ hg.literalValue) (spells_inRole _ (hg.expression _))

theorem spells_literalItem : Spells [] (literalItem g) := by
  refine .bind (spells_literalElement hg) fun _ => .look (looks_nextIs _) fun _ _ => ?_
  exact .ite (.bind (spells_mark _) fun _ => .bind (spells_literalElement hg) fun _ =>
    .pure (by simp)) (.pure (by simp))

theorem spells_literalValueNode : Spells [] (literalValueNode g) := by
  have hitems := spells_orNothing (spells_separated (spells_literalItem hg) ",")
  exact spells_phrase _ <| .bind (spells_mark _) fun _ => .bind hitems fun _ =>
    .bind (spells_optionalMark _) fun _ => .bind (spells_mark _) fun _ => .pure (by simp)

/-! ### Operands -/

theorem spells_conversion (t : Node) : Spells (spell t) (conversion g t) :=
  spells_phrase _ <| .bind (spells_mark _) fun _ => .bind (hg.expression _) fun _ =>
    .bind (spells_optionalMark _) fun _ => .bind (spells_mark _) fun _ => .pure (by simp)

theorem spells_afterType (t : Node) : Spells (spell t) (afterType g t) := by
  refine .look (looks_nextIs _) fun _ _ => .ite (.ite ?_ .failure) (spells_conversion hg t)
  exact .bind hg.literalValue fun _ => .pure (by simp)

theorem spells_functionOperand : Spells [] (functionOperand g) := by
  refine .orElse (spells_phrase _ ?_) (.andThen (spells_simpleType hg _) (spells_afterType hg))
  exact .bind (spells_mark _) fun _ => .bind (spells_parameterList hg) fun _ =>
    .bind (spells_result hg (spells_simpleType hg) _) fun _ => .bind hg.block fun _ =>
      .pure (by simp)

theorem spells_parenthesizedOperand : Spells [] (parenthesizedOperand g) := by
  refine .orElse (spells_phrase _ ?_) (.andThen (spells_typeNode hg _) (spells_conversion hg))
  exact .bind (spells_mark _) fun _ => .bind (hg.expression _) fun _ =>
    .bind (spells_mark _) fun _ => .pure (by simp)

theorem spells_bracketOperand : Spells [] (bracketOperand g) := by
  refine .look (looks_nextAre _) fun _ _ => .ite
    (spells_phrase _ (.bind (spells_phrase _ ?_) fun _ => .bind hg.literalValue fun _ =>
      .pure (by simp)))
    (.andThen (spells_simpleType hg _) (spells_afterType hg))
  exact .bind (spells_mark _) fun _ => .bind (spells_mark _) fun _ =>
    .bind (spells_mark _) fun _ => .bind (hg.type _) fun _ => .pure (by simp)

theorem spells_wordOperand (t : Token) : Spells [] (wordOperand g t) :=
  .ite (spells_functionOperand hg) <|
    .ite (.andThen (spells_simpleType hg _) (spells_afterType hg)) <| .ite .failure <|
      .ite (spells_take _) <| .ite (spells_take _) <| .ite (spells_take _) <|
        .ite (spells_take _) (spells_take _)

theorem spells_operandNode : Spells [] (operandNode g) := by
  refine .look looks_peek fun t _ => ?_
  cases t with
  | none => exact .failure
  | some t =>
    dsimp only
    cases t.kind with
    | word => exact spells_wordOperand hg t
    | int | float | imaginary | rune | rawString | string => exact spells_take _
    | symbol =>
      exact .ite (spells_parenthesizedOperand hg) (.ite (spells_bracketOperand hg) .failure)
    | nul => exact .failure

/-! ### What follows an operand -/

theorem spells_argument : Spells [] (argument g) := by
  refine .bind (hg.expression _) fun _ => .look (looks_nextIs _) fun _ _ => ?_
  exact .ite (.bind (spells_mark _) fun _ => .pure (by simp)) (.pure (by simp))

theorem spells_argumentList : Spells [] (argumentList g) := by
  have harguments : Spells [] (do
      let xs ← separated "," (argument g)
      let c ← optionalMark ","
      return xs ++ c) :=
    .bind (spells_separated (spells_argument hg) _) fun _ =>
      .bind (spells_optionalMark _) fun _ => .pure (by simp)
  exact spells_phrase _ <| .bind (spells_mark _) fun _ =>
    .bind (spells_orNothing harguments) fun _ => .bind (spells_mark _) fun _ => .pure (by simp)

theorem spells_allocationArguments : Spells [] (allocationArguments g) := by
  have hmore := spells_separatedTail (spells_inRole .part (hg.expression inner)) false ","
  have harguments : Spells [] (do
      let t ← g.type false
      let xs ← separatedTail false "," (inRole .part (g.expression inner))
      let c ← optionalMark ","
      return (Role.part, t) :: xs ++ c) :=
    .bind (hg.type _) fun _ => .bind hmore fun _ => .bind (spells_optionalMark _) fun _ =>
      .pure (by simp)
  exact spells_phrase _ <| .bind (spells_mark _) fun _ =>
    .bind (spells_orNothing harguments) fun _ => .bind (spells_mark _) fun _ => .pure (by simp)

theorem spells_callNode (x : Node) : Spells (spell x) (callNode g x) :=
  .ite (.bind (spells_allocationArguments hg) fun _ => .pure (by simp))
    (.bind (spells_argumentList hg) fun _ => .pure (by simp))

theorem spells_sliceBounds : Spells [] (sliceBounds g) := by
  refine .bind (spells_mark _) fun _ =>
    .bind (spells_orNothing (spells_inRole _ (hg.expression _))) fun _ => ?_
  refine .look (looks_nextIs _) fun _ _ => .ite ?_ (.pure (by simp))
  exact .bind (spells_mark _) fun _ => .bind (hg.expression _) fun _ => .pure (by simp)

theorem spells_bracketNode (x : Node) : Spells (spell x) (bracketNode g x) := by
  refine .orElse ?index ?instantiation
  case index =>
    refine .bind (spells_mark _) fun l =>
      .bind (spells_orNothing (spells_inRole _ (hg.expression _))) fun start =>
        .look (looks_nextIs _) fun _ _ => .ite ?_ (.bind (spells_mark _) fun r => ?_)
    · exact .bind (spells_sliceBounds hg) fun _ => .bind (spells_mark _) fun _ =>
        .pure (by simp)
    · split
      · exact .pure (by simp)
      · exact .failure
  case instantiation =>
    split
    · rename_i t ht
      rw [← spell_of_typeOfExpression? ht]
      exact .bind (spells_typeArguments hg) fun _ => .pure (by simp)
    · exact .failure

theorem spells_dotNode (x : Node) : Spells (spell x) (dotNode g x) := by
  refine .bind (spells_mark _) fun _ => .look (looks_nextIs _) fun _ _ => .ite ?_ ?_
  · exact .bind (spells_mark _) fun _ => .bind (hg.type _) fun _ => .bind (spells_mark _) fun _ =>
      .pure (by simp)
  · exact .bind (spells_name _) fun _ => .pure (by simp)

theorem spells_extend (c : Context) (fuel : Nat) (x : Node) :
    Spells (spell x) (extend g c fuel x) := by
  induction fuel generalizing x with
  | zero => exact .pure rfl
  | succ fuel ih =>
    have hthen {p : Parser Node} (hp : Spells (spell x) p) :
        Spells (spell x) (do extend g c fuel (← p)) := .andThen hp ih
    refine .look looks_peek fun t _ => ?_
    cases t with
    | none => exact .pure rfl
    | some t =>
      refine .ite (.pure rfl) (.ite ?dot (.ite (hthen (spells_callNode hg x))
        (.ite (hthen (spells_bracketNode hg x)) (.ite ?brace (.pure rfl)))))
      case dot =>
        exact .look (looks_nextAre _) fun _ _ => .ite (.pure rfl) (hthen (spells_dotNode hg x))
      case brace =>
        refine .look (looks_literalTypeOf? c x) fun t ht => ?_
        cases t with
        | none => exact .pure rfl
        | some t =>
          rw [← ht t rfl]
          refine .bind hg.literalValue fun b => ?_
          simpa using ih (.branch .compositeLiteral [(Role.type, t), (Role.body, b)])

theorem spells_primaryNode (c : Context) : Spells [] (primaryNode g c) :=
  .andThen (spells_operandNode hg) fun x => .look looks_get fun _ _ => spells_extend hg c _ x

/-! ### Operators -/

/-- The marks of a table are spelled as the two parts that they can be cut into. -/
abbrev SpelledInParts (table : List (String × String × String)) : Prop :=
  ∀ d ∈ table, d.1.toList = d.2.1.toList ++ d.2.2.toList

omit hg in
theorem spelled_doubledUnary : SpelledInParts doubledUnary := by decide

omit hg in
theorem spelled_splitOperators : SpelledInParts splitOperators := by decide

omit hg in
/-- The next token can be cut in two by a table. -/
theorem spellsFrom_splitting {α : Type} [Spelled α] {table : List (String × String × String)}
    (htable : SpelledInParts table) {cut : Bool}
    {rest : Unit → Parser α} {before : List Char} (hrest : ∀ u, Spells before (rest u))
    (t : Token) (ts : List Token) :
    SpellsFrom (t :: ts) before
      (if cut then
        match table.find? fun d => t.is d.1 with
        | some (_, a, b) => do rest (← splitToken a b)
        | _ => rest ()
      else rest ()) := by
  refine .ite ?_ (hrest () _)
  split
  · rename_i s a b hd
    have htext : t.text = s.toList := by simpa [Token.is] using List.find?_some hd
    have hparts : s.toList = a.toList ++ b.toList := htable _ (List.mem_of_find?_eq_some hd)
    intro x ts' h
    have hcut := hrest () _ x ts' h
    simpa [htext, hparts] using hcut
  · exact hrest () _

theorem spells_unaryNode (c : Context) : Spells [] (unaryNode g c) := by
  refine .ofPeek .failure fun t ts =>
    spellsFrom_splitting spelled_doubledUnary (fun _ => ?_) t ts
  refine .look looks_peek fun t _ => ?_
  cases t with
  | none => exact .failure
  | some t =>
    refine .ite (.orElse ?_ (.ite ?_ .failure)) (spells_primaryNode hg c)
    · exact .bind (spells_take _) fun _ => .bind (hg.unary c) fun _ => .pure (by simp)
    · exact .andThen (spells_simpleType hg _) (spells_afterType hg)

theorem spells_binaryFrom (c : Context) (fuel level : Nat) (x : Node) :
    Spells (spell x) (binaryFrom g c fuel level x) := by
  induction fuel generalizing level x with
  | zero => exact .pure rfl
  | succ fuel ih =>
    refine .ofPeek (.pure rfl) fun t ts => .ite (Spells.pure rfl _)
      (spellsFrom_splitting spelled_splitOperators (fun _ => ?_) t ts)
    refine .look looks_peek fun t _ => ?_
    cases t with
    | none => exact .pure rfl
    | some t =>
      refine .ite (.pure rfl) ?_
      split
      · -- the right operand is extended by itself, with the left one and the operator in front
        refine .ite (.pure rfl) (.bind (spells_take _) fun op =>
          .bind (spells_unaryNode hg c) fun y => .bindFrom (ih _ y) fun y => ?_)
        simpa using ih level
          (.branch .binaryExpression [(Role.left, x), (Role.operator, op), (Role.right, y)])
      · exact .pure rfl

theorem spells_binaryNode (c : Context) : Spells [] (binaryNode g c) :=
  .andThen (spells_unaryNode hg c) fun x => .look looks_get fun _ _ =>
    spells_binaryFrom hg c _ _ x

theorem spells_expressionList (c : Context) : Spells [] (expressionList g c) :=
  spells_phrase _ (spells_separatedOn (spells_inRole _ (hg.expression c)) _ _)

end Expressions

end ProviderCatalog.Go
