import ProviderCatalog.Go.Grammar.File
import ProviderCatalog.Proofs.Go.Phrases

/-!
# What the parsers of statements and files take

The parsers of declarations, statements and files spell what they take if the parsers of the phrases
inside do, and so the grammar of every nesting depth does.

## Main results

* `spells_declaration`, `spells_statementNode`: declarations and statements.
* `faithful_grammar`: the grammar of a nesting depth.
* `spells_topLevel`, `spells_fileNode`: files.
-/

namespace ProviderCatalog.Go

variable {g : Grammar} (hg : g.Faithful)

include hg

/-! ### Declarations -/

theorem spells_constSpec : Spells [] (constSpec g) := by
  have hvalue (t : Parts) : Spells (spell t) (do
      if !(← continuesWith true "=") then failure
      let eq ← mark "="
      return t ++ [eq, (Role.value, ← expressionList g ⟨true, false, false⟩)] : Parser Parts) :=
    .look (looks_continuesWith _ _) fun _ _ => .ite .failure_bind <|
      .bind (spells_mark _) fun _ => .bind (spells_expressionList hg _) fun _ => .pure (by simp)
  refine spells_phrase _ (.bind (spells_separatedOn (spells_inRole _ (spells_name _)) _ _) fun _ =>
    .bind (spells_orNothing (.look looks_peek fun _ _ => ?_)) fun _ => .pure (by simp))
  exact .ite (.andThen (spells_inRole _ (hg.type _)) hvalue) (.pure_bind (hvalue []))

theorem spells_varSpec : Spells [] (varSpec g) := by
  have hvalues : Spells [] (do
      let eq ← mark "="
      return [eq, (Role.value, ← expressionList g ⟨true, false, false⟩)] : Parser Parts) :=
    .bind (spells_mark _) fun _ => .bind (spells_expressionList hg _) fun _ => .pure (by simp)
  refine spells_phrase _ (.bind (spells_separated (spells_inRole _ (spells_name _)) _) fun _ =>
    .look (looks_nextIs _) fun _ _ => .ite (.bind hvalues fun _ => .pure (by simp)) ?_)
  refine .bind (hg.type _) fun _ => .look (looks_continuesWith _ _) fun _ _ => ?_
  exact .ite (.bind hvalues fun _ => .pure (by simp)) (.pure (by simp))

theorem spells_typeSpec : Spells [] (typeSpec g) := by
  have hrest (n : Node) (ps : Parts) : Spells (spell n ++ spell ps) (do
      if ← nextIs "=" then
        let eq ← mark "="
        return Node.branch .typeAlias ((Role.name, n) :: ps ++ [eq, (Role.type, ← g.type true)])
      else return Node.branch .typeSpec ((Role.name, n) :: ps ++ [(Role.type, ← g.type true)])) :=
    .look (looks_nextIs _) fun _ _ => .ite
      (.bind (spells_mark _) fun _ => .bind (hg.type _) fun _ => .pure (by simp))
      (.bind (hg.type _) fun _ => .pure (by simp))
  refine .bind (spells_name _) fun n => .orElse ?_ ?_
  · exact .bind (spells_inRole _ (spells_typeParameters hg)) fun ps => hrest n ps
  · simpa using hrest n []

omit hg in
theorem spells_grouped {p : Parser Node} (hp : Spells [] p) : Spells [] (grouped p) := by
  have hspec : Spells [] (do
      let s ← inRole .part p
      return s ++ (← terminator)) :=
    .bind (spells_inRole _ hp) fun _ => .bind spells_terminator fun _ => .pure (by simp)
  exact .bind (spells_mark _) fun _ => .bind (spells_many hspec) fun _ =>
    .bind (spells_mark _) fun _ => .pure (by simp)

theorem spells_declaration : Spells [] (declaration g) := by
  have hspecs {p : Parser Node} (hp : Spells [] p) (k : Role × Node) :
      Spells ([] ++ spell k) (do
        return k :: (← if ← nextIs "(" then grouped p else inRole .part p)) :=
    .look (looks_nextIs _) fun _ _ => .ite (.bind (spells_grouped hp) fun _ => .pure (by simp))
      (.bind (spells_inRole _ hp) fun _ => .pure (by simp))
  refine .look (looks_nextIs _) fun _ _ => .ite ?const <| .look (looks_nextIs _) fun _ _ =>
    .ite ?var <| .look (looks_nextIs _) fun _ _ => .ite ?type .failure
  case const =>
    exact spells_phrase _ <| .bind (spells_mark _) fun k => hspecs (spells_constSpec hg) k
  case var =>
    have hspec := spells_varSpec hg
    refine spells_phrase _ <| .bind (spells_mark _) fun k => .look (looks_nextIs _) fun _ _ =>
      .ite (.bind (spells_phrase _ (spells_grouped hspec)) fun _ => .pure (by simp)) ?_
    exact .bind (spells_inRole _ hspec) fun _ => .pure (by simp)
  case type =>
    exact spells_phrase _ <| .bind (spells_mark _) fun k => hspecs (spells_typeSpec hg) k

/-! ### Statements without keywords -/

omit hg in
theorem spell_of_onlyExpression? {left x : Node} (h : onlyExpression? left = some x) :
    spell x = spell left := by
  unfold onlyExpression? at h
  split at h
  · cases h
    simp
  · exact nomatch h

omit hg in
/-- An expression that is a statement of its own. -/
theorem spells_expressionStatement (left : Node) :
    Spells (spell left) (match onlyExpression? left with
      | some x => return .branch .expressionStatement [(Role.part, x)]
      | none => failure : Parser Node) := by
  split
  · rename_i x hx
    exact .pure (by simp [spell_of_onlyExpression? hx])
  · exact .failure

theorem spells_afterLeft (c right : Context) (left : Node) :
    Spells (spell left) (afterLeft g c right left) := by
  have halone := spells_expressionStatement left
  refine .look looks_peek fun t _ => ?_
  cases t with
  | none => exact halone
  | some t =>
    refine .ite halone (.ite ?_ (.ite ?_ ?_))
    · exact .bind (spells_mark _) fun _ => .bind (spells_expressionList hg _) fun _ =>
        .pure (by simp)
    · exact .bind (spells_take _) fun _ => .bind (spells_expressionList hg _) fun _ =>
        .pure (by simp)
    · split
      · exact .failure
      · rename_i x hx
        rw [← spell_of_onlyExpression? hx]
        refine .ite (.bind (spells_mark _) fun _ => .pure (by simp))
          (.ite (.bind (spells_mark _) fun _ => .pure (by simp)) (.ite ?_ (.pure (by simp))))
        exact .bind (spells_mark _) fun _ => .bind (hg.expression _) fun _ => .pure (by simp)

theorem spells_simpleStatement (c right : Context) : Spells [] (simpleStatement g c right) :=
  .andThen (spells_expressionList hg c) fun left => spells_afterLeft hg c right left

/-! ### Control statements -/

omit hg in
theorem spells_bareLabel : Spells [] (phrase .labeledStatement do
    let n ← name .labelName
    return [(Role.label, n), ← mark ":"]) :=
  spells_phrase _ <| .bind (spells_name _) fun _ => .bind (spells_mark _) fun _ => .pure (by simp)

theorem spells_statementParts : Spells [] (statementParts g) := by
  have hstatement := spells_inRole .part hg.statement
  have hmore : Spells [] (do
      let e ← terminator
      let s ← inRole .part g.statement
      return e ++ s) :=
    .bind spells_terminator fun _ => .bind hstatement fun _ => .pure (by simp)
  have hlast : Spells [] (do
      let e ← terminator
      let label ← orNothing (inRole .part (phrase .labeledStatement do
        let n ← name .labelName
        return [(Role.label, n), ← mark ":"]))
      return e ++ label) :=
    .bind spells_terminator fun _ =>
      .bind (spells_orNothing (spells_inRole .part spells_bareLabel)) fun _ => .pure (by simp)
  exact .bind hstatement fun _ => .bind (spells_many hmore) fun _ =>
    .bind (spells_orNothing hlast) fun _ => .pure (by simp)

theorem spells_statements : Spells [] (statements g) :=
  .orElse (spells_inRole _ (spells_phrase _ (spells_statementParts hg))) <|
    .orElse (spells_inRole _ (spells_phrase _ (spells_inRole _ spells_bareLabel))) (.pure rfl)

theorem spells_blockNode : Spells [] (blockNode g) :=
  spells_phrase _ <| .bind (spells_mark _) fun _ => .bind (spells_statements hg) fun _ =>
    .bind (spells_mark _) fun _ => .pure (by simp)

theorem spells_ifNode : Spells [] (ifNode g) := by
  refine spells_phrase _ (.bind (spells_mark _) fun k =>
    .bind (spells_simpleStatement hg _ _) fun first => ?_)
  have hrest (header : Parts) : Spells (spell k ++ spell header) (do
      let body ← g.block
      let otherwise ←
        if ← continuesWith true "else" then
          let e ← mark "else"
          if ← nextIs "if" then pure [e, (Role.alternative, ← g.ifStatement)]
          else pure [e, (Role.alternative, ← g.block)]
        else pure []
      return k :: header ++ [(Role.consequence, body)] ++ otherwise : Parser Parts) := by
    refine .bind hg.block fun _ => .look (looks_continuesWith _ _) fun _ _ =>
      .ite ?_ (.pure_bind (.pure (by simp)))
    refine .bind (spells_mark _) fun _ => .look (looks_nextIs _) fun _ _ => .ite ?_ ?_
    · exact .bind hg.ifStatement fun _ => .pure_bind (.pure (by simp))
    · exact .bind hg.block fun _ => .pure_bind (.pure (by simp))
  refine .look (looks_nextIs _) fun _ _ => .ite ?_ ?_
  · refine .bind (spells_mark _) fun s => .bind (hg.expression _) fun x => .pure_bind ?_
    simpa using hrest [(Role.initializer, first), s, (Role.condition, x)]
  · split
    · rename_i r x
      simpa using hrest [(Role.condition, x)]
    · exact .failure_bind

theorem spells_rangeClause : Spells [] (rangeClause g) := by
  have hleft : Spells [] (do
      let l ← expressionList g atHeader
      let op ← mark ":=" <|> mark "="
      return [(Role.left, l), op] : Parser Parts) :=
    .bind (spells_expressionList hg _) fun _ =>
      .bind (.orElse (spells_mark _) (spells_mark _)) fun _ => .pure (by simp)
  exact spells_phrase _ <| .bind (spells_orNothing hleft) fun _ => .bind (spells_mark _) fun _ =>
    .bind (hg.expression _) fun _ => .pure (by simp)

theorem spells_forClause : Spells [] (forClause g) :=
  spells_phrase _ <|
    .bind (spells_orNothing (spells_inRole _ (spells_simpleStatement hg _ _))) fun _ =>
    .bind (spells_mark _) fun _ =>
    .bind (spells_orNothing (spells_inRole _ (hg.expression _))) fun _ =>
    .bind (spells_mark _) fun _ =>
    .bind (spells_orNothing (spells_inRole _ (spells_simpleStatement hg _ _))) fun _ =>
      .pure (by simp)

theorem spells_forNode : Spells [] (forNode g) := by
  refine spells_phrase _ (.bind (spells_mark _) fun k => .look (looks_nextIs _) fun _ _ =>
    .ite (.bind hg.block fun _ => .pure (by simp)) ?_)
  have hloop {p : Parser Node} (hp : Spells [] p) : Spells ([] ++ spell k) (do
      return [k, (Role.part, ← p), (Role.body, ← g.block)] : Parser Parts) :=
    .bind hp fun _ => .bind hg.block fun _ => .pure (by simp)
  exact .orElse (hloop (spells_rangeClause hg)) <|
    .orElse (hloop (spells_forClause hg)) (hloop (hg.expression _))

theorem spells_cases (kind : Kind) {header : Parser Parts} (hheader : Spells [] header) :
    Spells [] (cases g kind header) := by
  have hcase : Spells [] (do
      if ← nextIs "default" then inRole .part (phrase .defaultCase do
        let d ← mark "default"
        let colon ← mark ":"
        return d :: colon :: (← statements g))
      else inRole .part (phrase kind do
        let k ← mark "case"
        let h ← header
        let colon ← mark ":"
        return k :: h ++ colon :: (← statements g))) := by
    refine .look (looks_nextIs _) fun _ _ => .ite (spells_inRole _ (spells_phrase _ ?_))
      (spells_inRole _ (spells_phrase _ ?_))
    · exact .bind (spells_mark _) fun _ => .bind (spells_mark _) fun _ =>
        .bind (spells_statements hg) fun _ => .pure (by simp)
    · exact .bind (spells_mark _) fun _ => .bind hheader fun _ => .bind (spells_mark _) fun _ =>
        .bind (spells_statements hg) fun _ => .pure (by simp)
  exact .bind (spells_mark _) fun _ => .bind (spells_many hcase) fun _ =>
    .bind (spells_mark _) fun _ => .pure (by simp)

omit hg in
theorem spells_typeMark : Spells [] typeMark :=
  .bind (spells_mark _) fun _ => .bind (spells_mark _) fun _ => .bind (spells_mark _) fun _ =>
    .bind (spells_mark _) fun _ => .pure (by simp)

theorem spells_typeSwitchHeader : Spells [] (typeSwitchHeader g) := by
  have hshorthand : Spells [] (do
      let l ← expressionList g atHeader
      return [(Role.symbol, l), ← mark ":="] : Parser Parts) :=
    .bind (spells_expressionList hg _) fun _ => .bind (spells_mark _) fun _ => .pure (by simp)
  exact .bind (spells_orNothing hshorthand) fun _ => .bind (hg.expression _) fun _ =>
    .bind spells_typeMark fun _ => .pure (by simp)

theorem spells_typeCases : Spells [] (typeCases g) :=
  spells_cases hg _ (spells_separated (spells_inRole _ (hg.type _)) _)

theorem spells_valueCases : Spells [] (valueCases g) :=
  spells_cases hg _ (spells_inRole _ (spells_expressionList hg _))

theorem spells_afterSwitch (front : Parts) : Spells (spell front) (afterSwitch g front) := by
  refine .orElse ?types (.look (looks_nextIs _) fun _ _ => .ite (.pure_bind ?bare) ?values)
  case types =>
    exact .bind (spells_typeSwitchHeader hg) fun _ => .bind (spells_typeCases hg) fun _ =>
      .pure (by simp)
  case bare => exact .bind (spells_valueCases hg) fun _ => .pure (by simp)
  case values =>
    exact .bind (spells_inRole _ (hg.expression _)) fun _ => .bind (spells_valueCases hg) fun _ =>
      .pure (by simp)

theorem spells_switchNode : Spells [] (switchNode g) := by
  refine .bind (spells_mark _) fun k => .orElse ?_ ?_
  · refine .bind (spells_simpleStatement hg _ _) fun first => .bind (spells_mark _) fun s => ?_
    simpa using spells_afterSwitch hg [k, (Role.initializer, first), s]
  · simpa using spells_afterSwitch hg [k]

theorem spells_communication : Spells [] (communication g) := by
  refine .orElse ?assigning <| .orElse ?sending <|
    spells_phrase _ (spells_inRole _ (hg.expression _))
  case assigning =>
    exact spells_phrase _ <| .bind (spells_expressionList hg _) fun _ =>
      .bind (.orElse (spells_mark _) (spells_mark _)) fun _ => .bind (hg.expression _) fun _ =>
        .pure (by simp)
  case sending =>
    exact spells_phrase _ <| .bind (hg.expression _) fun _ => .bind (spells_mark _) fun _ =>
      .bind (hg.expression _) fun _ => .pure (by simp)

theorem spells_selectNode : Spells [] (selectNode g) := by
  have hcases := spells_cases hg .communicationCase
    (spells_inRole .communication (spells_communication hg))
  exact spells_phrase _ <| .bind (spells_mark _) fun _ => .bind hcases fun _ => .pure (by simp)

omit hg in
theorem spells_jump (kind : Kind) (keyword : String) : Spells [] (jump kind keyword) :=
  spells_phrase _ <| .bind (spells_mark _) fun _ => .look looks_peek fun _ _ =>
    .ite (.bind (spells_name _) fun _ => .pure (by simp)) (.pure (by simp))

theorem spells_returnNode : Spells [] (returnNode g) := by
  have hvalues := spells_orNothing (spells_inRole .part (spells_expressionList hg atRight))
  exact spells_phrase _ <| .bind (spells_mark _) fun _ => .look looks_peek fun _ _ =>
    .ite (.pure (by simp)) (.bind hvalues fun _ => .pure (by simp))

theorem spells_labeled : Spells [] (labeled g) :=
  spells_phrase _ <| .bind (spells_name _) fun _ => .bind (spells_mark _) fun _ =>
    .bind hg.statement fun _ => .pure (by simp)

section Cases

variable {α : Type} {P : α → Prop}

omit hg in
theorem forall_mem_ite {c : Prop} [Decidable c] {x y : Option α} (hx : ∀ a ∈ x, P a)
    (hy : ∀ a ∈ y, P a) : ∀ a ∈ if c then x else y, P a := by
  split
  · exact hx
  · exact hy

omit hg in
theorem forall_mem_some {x : α} (hx : P x) : ∀ a ∈ some x, P a :=
  fun _ ha => Option.some.inj ha ▸ hx

end Cases

theorem spells_keywordStatement? (t : Token) : ∀ p ∈ keywordStatement? g t, Spells [] p := by
  have hprefixed (kind : Kind) (s : String) : Spells [] (phrase kind do
      let k ← mark s
      return [k, (Role.part, ← g.expression atRight)]) :=
    spells_phrase _ <| .bind (spells_mark _) fun _ => .bind (hg.expression _) fun _ =>
      .pure (by simp)
  refine forall_mem_ite (forall_mem_some (spells_declaration hg)) <|
    forall_mem_ite (forall_mem_some (spells_returnNode hg)) <|
    forall_mem_ite (forall_mem_some (hprefixed _ _)) <|
    forall_mem_ite (forall_mem_some (hprefixed _ _)) <|
    forall_mem_ite (forall_mem_some hg.ifStatement) <|
    forall_mem_ite (forall_mem_some (spells_forNode hg)) <|
    forall_mem_ite (forall_mem_some (spells_switchNode hg)) <|
    forall_mem_ite (forall_mem_some (spells_selectNode hg)) <|
    forall_mem_ite (forall_mem_some (spells_jump _ _)) <|
    forall_mem_ite (forall_mem_some (spells_jump _ _)) <|
    forall_mem_ite (forall_mem_some ?goto) <| forall_mem_ite (forall_mem_some ?fallthrough) nofun
  case goto =>
    exact spells_phrase _ <| .bind (spells_mark _) fun _ => .bind (spells_name _) fun _ =>
      .pure (by simp)
  case fallthrough => exact spells_phrase _ <| .bind (spells_mark _) fun _ => .pure (by simp)

theorem spells_statementNode : Spells [] (statementNode g) := by
  refine .look looks_peek fun t _ => ?_
  cases t with
  | none => exact .failure
  | some t =>
    dsimp only
    split
    · rename_i p hp
      exact spells_keywordStatement? hg t p hp
    · refine .ite hg.block (.ite ?_ (.look looks_get fun _ _ => ?_))
      · exact spells_phrase _ <| .bind (spells_mark _) fun _ => .pure (by simp)
      · exact .ite (spells_labeled hg) (spells_simpleStatement hg _ _)

/-! ### All phrases -/

theorem Grammar.faithful_next : g.next.Faithful where
  expression := spells_binaryNode hg
  unary := spells_unaryNode hg
  type := spells_typeNode hg
  statement := spells_statementNode hg
  block := spells_blockNode hg
  ifStatement := spells_ifNode hg
  literalValue := spells_literalValueNode hg

theorem Grammar.faithful_deepen (depth : Nat) : (g.deepen depth).Faithful := by
  induction depth generalizing g with
  | zero => exact hg
  | succ depth ih => exact ih (Grammar.faithful_next hg)

omit hg

theorem faithful_grammar (depth : Nat) : (grammar depth).Faithful :=
  Grammar.faithful_deepen Grammar.faithful_empty depth

/-! ### Files -/

theorem spells_importSpec : Spells [] importSpec := by
  have hname := spells_inRole .name <|
    .orElse (spells_token .dot ".") <|
      .orElse (spells_token .blankIdentifier "_") (spells_name .packageIdentifier)
  refine spells_phrase _ (.bind (spells_orNothing hname) fun n => .look looks_peek fun t _ => ?_)
  have hpath (k : Kind) :
      Spells ([] ++ spell n) (do return n ++ [(Role.path, ← take k)] : Parser Parts) :=
    .bind (spells_take k) fun _ => .pure (by simp)
  cases t with
  | none => exact .failure
  | some t => exact .ite (hpath _) (.ite (hpath _) .failure)

theorem spells_importSpecList : Spells [] importSpecList := by
  have hspec := spells_inRole .part spells_importSpec
  have hmore : Spells [] (do
      let e ← terminator
      let s ← inRole .part importSpec
      return e ++ s) :=
    .bind spells_terminator fun _ => .bind hspec fun _ => .pure (by simp)
  refine spells_phrase _ (.bind (spells_mark _) fun _ => .bind (spells_orNothing ?_) fun _ =>
    .bind (spells_mark _) fun _ => .pure (by simp))
  exact .bind hspec fun _ => .bind (spells_many hmore) fun _ =>
    .bind (spells_orNothing spells_terminator) fun _ => .pure (by simp)

theorem spells_importDeclaration : Spells [] importDeclaration := by
  refine spells_phrase _ (.bind (spells_mark _) fun _ => .look (looks_nextIs _) fun _ _ =>
    .ite ?_ ?_)
  · exact .bind spells_importSpecList fun _ => .pure (by simp)
  · exact .bind spells_importSpec fun _ => .pure (by simp)

include hg

theorem spells_body : Spells [] (body g) :=
  .look (looks_continuesWith _ _) fun _ _ => .ite (spells_inRole _ hg.block) (.pure rfl)

theorem spells_functionDeclaration : Spells [] (functionDeclaration g) := by
  have hresult := spells_result hg (spells_simpleType hg) true
  refine .bind (spells_mark _) fun k => .look (looks_nextIs _) fun _ _ =>
    .ite (spells_phrase _ ?method) (spells_phrase _ ?function)
  case method =>
    exact .bind (spells_parameterList hg) fun _ => .bind (spells_name _) fun _ =>
      .bind (spells_parameterList hg) fun _ => .bind hresult fun _ =>
      .bind (spells_body hg) fun _ => .pure (by simp)
  case function =>
    refine .bind (spells_name _) fun n => ?_
    have hrest (ts : Parts) : Spells ([] ++ spell k ++ spell n ++ spell ts) (do
        let ps ← parameterList g
        let r ← result g (simpleType g) true
        return [k, (Role.name, n)] ++ ts ++ [(Role.parameters, ps)] ++ r ++ (← body g) : Parser Parts) :=
      .bind (spells_parameterList hg) fun _ => .bind hresult fun _ =>
      .bind (spells_body hg) fun _ => .pure (by simp)
    exact .look (looks_nextIs _) fun _ _ => .ite
      (.bind (spells_inRole _ (spells_typeParameters hg)) hrest)
      (.pure_bind (by simpa using hrest []))

theorem spells_topLevel : Spells [] (topLevel g) := by
  have hstatement := spells_statementNode hg
  refine .look (looks_nextIs _) fun _ _ => .ite ?_ <| .look (looks_nextIs _) fun _ _ =>
    .ite spells_importDeclaration <| .look (looks_nextIs _) fun _ _ =>
      .ite (.orElse (spells_functionDeclaration hg) hstatement) hstatement
  exact spells_phrase _ <| .bind (spells_mark _) fun _ => .bind (spells_name _) fun _ =>
    .pure (by simp)

theorem spells_fileNode : Spells [] (fileNode g) := by
  have hitem := spells_inRole .part (spells_topLevel hg)
  have hitems := spells_many <|
    .bind hitem fun x => .bind spells_terminator fun e => Spells.pure (spell_append x e)
  exact spells_phrase _ <| .bind hitems fun _ => .bind (spells_orNothing hitem) fun _ =>
    .pure (by simp)

end ProviderCatalog.Go
