import ProviderCatalog.Go.Grammar.File
import ProviderCatalog.Proofs.Go.RelabellingPhrases
import ProviderCatalog.Proofs.Go.Statements

/-!
# Relabelling statements and files

The parsers of declarations, statements and files make the same of relabelled tokens, up to
relabelling, if the parsers of the phrases inside do, and so the grammar of every nesting depth
does. Hence relabelled tokens have the relabelled tree, and a tree of a source has the shapes of its
kinds.

## Main results

* `relabels_declaration`, `relabels_statementNode`: declarations and statements.
* `uniform_grammar`: the grammar of a nesting depth.
* `relabels_topLevel`, `relabels_fileNode`: files.
-/

namespace ProviderCatalog.Go

variable {φ : Relabelling} {g : Grammar} (hg : g.Uniform φ)

include hg

/-! ### Declarations -/

/-- The values of a declaration, behind what stands in front of them. -/
theorem relabels_assigned {front : Parts} (hfront : Sound front) : Relabels φ SoundParts (do
      let eq ← mark "="
      return front ++ [eq, (Role.value, ← expressionList g ⟨true, false, false⟩)] : Parser Parts) (do
      let eq ← mark "="
      return relabel φ front ++ [eq, (Role.value, ← expressionList g ⟨true, false, false⟩)]) :=
  .bind (relabels_soundMark _) fun _ heq => .bind (relabels_expressionList hg _) fun _ hvalues =>
    .pure (by simp) (by simp [hfront, heq, hvalues, Role.Fits])

theorem relabels_constSpec : Relabels φ Sound (constSpec g) (constSpec g) := by
  have hvalue {t : Parts} (ht : Sound t) : Relabels φ SoundParts (do
      if !(← continuesWith true "=") then failure
      let eq ← mark "="
      return t ++ [eq, (Role.value, ← expressionList g ⟨true, false, false⟩)] : Parser Parts) (do
      if !(← continuesWith true "=") then failure
      let eq ← mark "="
      return relabel φ t ++ [eq, (Role.value, ← expressionList g ⟨true, false, false⟩)]) :=
    .look (relabels_continuesWith _ _) fun _ => .ite .failure_bind (relabels_assigned hg ht)
  have htype : Relabels φ SoundParts (inRole .type (g.type true)) (inRole .type (g.type true)) :=
    relabels_inRole _ (relabels_soundType hg _) fun _ hn => ⟨trivial, hn⟩
  refine relabels_plainPhrase _ (.bind (relabels_separatedOn
    (relabels_nameInRole .name _ fun _ h => h) _ _) fun _ hnames =>
      .bind (relabels_orNothing (.ofParts (.peek ?_ fun t _ => ?_))) fun _ hrest =>
        .pure (by simp) (by simp [hnames.1, hnames.2, hrest])) fun _ => trivial
  · exact .ite (.bind htype fun _ ht => hvalue ht.2) (.pure_bind (hvalue sound_nil))
  · exact .ite (.bind htype fun _ ht => hvalue ht.2) (.pure_bind (hvalue sound_nil))

theorem relabels_varSpec : Relabels φ Sound (varSpec g) (varSpec g) := by
  have hvalues := relabels_assigned hg sound_nil
  refine relabels_plainPhrase _ (.bind (relabels_separated
    (relabels_nameInRole .name _ fun _ h => h) _) fun _ hnames =>
      .look (relabels_nextIs _) fun _ => .ite (.bind hvalues fun _ hvs =>
        .pure (by simp) (by simp [hnames.1, hnames.2, hvs.2])) ?_) fun _ => trivial
  refine .bind (relabels_soundType hg _) fun _ ht => .look (relabels_continuesWith _ _) fun _ => ?_
  exact .ite (.bind hvalues fun _ hvs =>
    .pure (by simp) (by simp [hnames.2, ht, hvs.2, Role.Fits]))
    (.pure (by simp) (by simp [hnames.2, ht, Role.Fits]))

theorem relabels_typeSpec : Relabels φ Sound (typeSpec g) (typeSpec g) := by
  have hrest {n : Node} (hn : n.IsToken ∧ Sound n) {ps : Parts} (hps : Sound ps) :
      Relabels φ Sound (do
        if ← nextIs "=" then
          let eq ← mark "="
          return Node.branch .typeAlias ((Role.name, n) :: ps ++ [eq, (Role.type, ← g.type true)])
        else return Node.branch .typeSpec ((Role.name, n) :: ps ++ [(Role.type, ← g.type true)])) (do
        if ← nextIs "=" then
          let eq ← mark "="
          return Node.branch .typeAlias
            ((Role.name, relabel φ n) :: relabel φ ps ++ [eq, (Role.type, ← g.type true)])
        else
          return Node.branch .typeSpec
            ((Role.name, relabel φ n) :: relabel φ ps ++ [(Role.type, ← g.type true)])) :=
    .look (relabels_nextIs _) fun _ => .ite
      (.bind (relabels_soundMark _) fun _ heq => .bind (relabels_soundType hg _) fun _ ht =>
        .pure (by simp) ((sound_branch _ _).mpr
          ⟨trivial, by simp, by simp [hn, hps, heq, ht, Role.Fits]⟩))
      (.bind (relabels_soundType hg _) fun _ ht =>
        .pure (by simp) ((sound_branch _ _).mpr
          ⟨trivial, by simp, by simp [hn, hps, ht, Role.Fits]⟩))
  refine .bind (relabels_name _) fun n hn => .orElse ?_ (hrest ⟨hn.isToken, hn.sound⟩ sound_nil)
  exact .bind
    (relabels_inRole .typeParameters (relabels_typeParameters hg) fun _ hn => ⟨trivial, hn⟩)
    fun ps hps => hrest ⟨hn.isToken, hn.sound⟩ hps.2

omit hg in
theorem relabels_grouped {p : Parser Node} (hp : Relabels φ Sound p p) :
    Relabels φ SoundParts (grouped p) (grouped p) := by
  have hspec : Relabels φ Sound (do
      let s ← inRole .part p
      return s ++ (← terminator)) (do
      let s ← inRole .part p
      return s ++ (← terminator)) :=
    .bind (relabels_part hp) fun _ hs => .bind relabels_terminator fun _ he =>
      .pure (by simp) (by simp [hs.2, he])
  exact .bind (relabels_soundMark _) fun _ hl => .bind (relabels_many hspec) fun _ hspecs =>
    .bind (relabels_soundMark _) fun _ hr => .pure (by simp) (by simpa using ⟨hl, hspecs, hr⟩)

theorem relabels_declaration : Relabels φ Sound (declaration g) (declaration g) := by
  have hspecs {p : Parser Node} (hp : Relabels φ Sound p p) {k : Role × Node} (hk : Sound k) :
      Relabels φ SoundParts (do
        return k :: (← if ← nextIs "(" then grouped p else inRole .part p)) (do
        return relabel φ k :: (← if ← nextIs "(" then grouped p else inRole .part p)) :=
    .look (relabels_nextIs _) fun _ => .ite
      (.bind (relabels_grouped hp) fun _ hs => .pure (by simp) (by simp [hk, hs.2]))
      (.bind (relabels_part hp) fun _ hs => .pure (by simp) (by simp [hk, hs.2]))
  refine .look (relabels_nextIs _) fun _ => .ite ?const <| .look (relabels_nextIs _) fun _ =>
    .ite ?var <| .look (relabels_nextIs _) fun _ => .ite ?type .failure
  all_goals
    refine relabels_plainPhrase _ (.bind (relabels_soundMark _) fun k hk => ?_) fun _ => trivial
  case const => exact hspecs (relabels_constSpec hg) hk
  case var =>
    have hspec := relabels_varSpec hg
    have hlist : Relabels φ Sound (phrase .varSpecList (grouped (varSpec g)))
        (phrase .varSpecList (grouped (varSpec g))) :=
      relabels_plainPhrase _ (relabels_grouped hspec) fun _ => trivial
    exact .look (relabels_nextIs _) fun _ => .ite
      (.bind hlist fun _ hl => .pure (by simp) (by simp [hk, hl, Role.Fits]))
      (.bind (relabels_part hspec) fun _ hs => .pure (by simp) (by simp [hk, hs.2]))
  case type => exact hspecs (relabels_typeSpec hg) hk

/-! ### Statements without keywords -/

omit hg in
theorem onlyExpression?_relabel (left : Node) :
    onlyExpression? (relabel φ left) = (onlyExpression? left).map (relabel φ) := by
  fun_cases onlyExpression? left with
  | case1 r x => simp [onlyExpression?]
  | case2 left hne =>
    rw [onlyExpression?]
    · rfl
    · simp only [relabel_eq_branch_iff, relabel_eq_cons_iff, relabel_eq_part_iff,
        relabel_eq_nil_iff]
      rintro _ _ ⟨_, rfl, _, _, rfl, ⟨_, rfl, -⟩, rfl⟩
      exact hne _ _ rfl

omit hg in
theorem sound_of_onlyExpression? {left x : Node} (h : onlyExpression? left = some x)
    (hleft : Sound left) : Sound x := by
  unfold onlyExpression? at h
  split at h
  · cases h
    exact ((sound_cons _ _).mp ((sound_branch _ _).mp hleft).2.2).1.2
  · exact nomatch h

omit hg in
/-- An expression that is a statement of its own. -/
theorem relabels_expressionStatement {left : Node} (hleft : Sound left) :
    Relabels φ Sound (match onlyExpression? left with
      | some x => return .branch .expressionStatement [(Role.part, x)]
      | none => failure : Parser Node) (match onlyExpression? (relabel φ left) with
      | some x => return .branch .expressionStatement [(Role.part, x)]
      | none => failure) := by
  rw [onlyExpression?_relabel]
  cases hx : onlyExpression? left with
  | none => exact .failure
  | some x =>
    exact .pure (by simp) ((sound_branch _ _).mpr
      ⟨trivial, by simp, by simp [sound_of_onlyExpression? hx hleft, Role.Fits]⟩)

theorem relabels_afterLeft (c right : Context) {left : Node} (hleft : Sound left) :
    Relabels φ Sound (afterLeft g c right left) (afterLeft g c right (relabel φ left)) := by
  have halone := relabels_expressionStatement (φ := φ) hleft
  refine .peek halone fun t _ => .ite halone (.ite ?_ (.ite ?_ ?_))
  · exact .bind (relabels_soundMark _) fun _ hop => .bind (relabels_expressionList hg _)
      fun _ hvalues => .pure (by simp) ((sound_branch _ _).mpr
        ⟨trivial, by simp, by simp [hleft, hop, hvalues, Role.Fits]⟩)
  · exact .bind (relabels_take _) fun _ hop => .bind (relabels_expressionList hg _)
      fun _ hvalues => .pure (by simp) ((sound_branch _ _).mpr
        ⟨trivial, by simp, by simp [hleft, hop.isToken, hop.sound, hvalues, Role.Fits]⟩)
  · rw [onlyExpression?_relabel]
    cases hx : onlyExpression? left with
    | none => exact .failure
    | some x =>
      have hx := sound_of_onlyExpression? hx hleft
      refine .ite (.bind (relabels_soundMark _) fun _ hm => .pure (by simp) ?inc)
        (.ite (.bind (relabels_soundMark _) fun _ hm => .pure (by simp) ?dec)
          (.ite ?send (.pure (by simp) ?alone)))
      case send =>
        exact .bind (relabels_soundMark _) fun _ ha => .bind (hg.expression _) fun _ hvalue =>
          .pure (by simp) ((sound_branch _ _).mpr
            ⟨trivial, by simp, by simp [hx, ha, hvalue, Role.Fits]⟩)
      case alone => exact (sound_branch _ _).mpr ⟨trivial, by simp, by simp [hx, Role.Fits]⟩
      all_goals exact (sound_branch _ _).mpr ⟨trivial, by simp, by simp [hx, hm, Role.Fits]⟩

theorem relabels_simpleStatement (c right : Context) :
    Relabels φ Sound (simpleStatement g c right) (simpleStatement g c right) :=
  .bind (relabels_expressionList hg c) fun _ hleft => relabels_afterLeft hg c right hleft

/-! ### Control statements -/

omit hg in
theorem relabels_bareLabel : Relabels φ Sound (phrase .labeledStatement do
      let n ← name .labelName
      return [(Role.label, n), ← mark ":"]) (phrase .labeledStatement do
      let n ← name .labelName
      return [(Role.label, n), ← mark ":"]) :=
  relabels_plainPhrase _ (.bind (relabels_name _) fun _ hn => .bind (relabels_soundMark _)
    fun _ hc => .pure (by simp) (by simp [hn.sound, hc, Role.Fits])) fun _ => trivial

theorem relabels_statementParts :
    Relabels φ SoundParts (statementParts g) (statementParts g) := by
  have hstatement := relabels_part hg.statement
  have hmore : Relabels φ Sound (do
      let e ← terminator
      let s ← inRole .part g.statement
      return e ++ s) (do
      let e ← terminator
      let s ← inRole .part g.statement
      return e ++ s) :=
    .bind relabels_terminator fun _ he => .bind hstatement fun _ hs =>
      .pure (by simp) (by simp [he, hs.2])
  refine .bind hstatement fun _ hfirst => .bind (relabels_many hmore) fun _ hrest =>
    .bind (relabels_orNothing ?_) fun _ hlast =>
      .pure (by simp) (by simpa [hfirst.1] using ⟨hfirst.2, hrest, hlast⟩)
  exact .bind relabels_terminator fun _ he =>
    .bind (relabels_orNothing (relabels_part relabels_bareLabel).ofParts) fun _ hl =>
      .pure (by simp) (by simp [he, hl])

theorem relabels_statements : Relabels φ Sound (statements g) (statements g) := by
  refine .orElse (relabels_part (relabels_plainPhrase _ (relabels_statementParts hg) ?_)).ofParts <|
    .orElse (relabels_part (relabels_plainPhrase _ (relabels_part relabels_bareLabel) ?_)).ofParts
      (.pure rfl sound_nil)
  all_goals exact fun _ => trivial

theorem relabels_blockNode : Relabels φ Sound (blockNode g) (blockNode g) :=
  relabels_plainPhrase _ (.bind (relabels_soundMark _) fun _ hl => .bind (relabels_statements hg)
    fun _ hs => .bind (relabels_soundMark _) fun _ hr => .pure (by simp) (by simp [hl, hs, hr]))
    fun _ => trivial

theorem relabels_ifNode : Relabels φ Sound (ifNode g) (ifNode g) := by
  refine relabels_plainPhrase _ (.bind (relabels_soundMark _) fun k hk =>
    .bind (relabels_simpleStatement hg _ _) fun first hfirst => ?_) fun _ => trivial
  have hrest {header : Parts} (hheader : Sound header) : Relabels φ SoundParts (do
      let body ← g.block
      let otherwise ←
        if ← continuesWith true "else" then
          let e ← mark "else"
          if ← nextIs "if" then pure [e, (Role.alternative, ← g.ifStatement)]
          else pure [e, (Role.alternative, ← g.block)]
        else pure []
      return k :: header ++ [(Role.consequence, body)] ++ otherwise : Parser Parts) (do
      let body ← g.block
      let otherwise ←
        if ← continuesWith true "else" then
          let e ← mark "else"
          if ← nextIs "if" then pure [e, (Role.alternative, ← g.ifStatement)]
          else pure [e, (Role.alternative, ← g.block)]
        else pure []
      return relabel φ k :: relabel φ header ++ [(Role.consequence, body)] ++ otherwise) := by
    refine .bind hg.block fun _ hbody => .look (relabels_continuesWith _ _) fun _ =>
      .ite ?_ (.pure_bind (.pure (by simp) (by simp [hk, hheader, hbody, Role.Fits])))
    refine .bind (relabels_soundMark _) fun _ he => .look (relabels_nextIs _) fun _ => .ite ?_ ?_
    · exact .bind hg.ifStatement fun _ hn => .pure_bind (.pure (by simp)
        (by simp [hk, hheader, hbody, he, hn, Role.Fits]))
    · exact .bind hg.block fun _ hn => .pure_bind (.pure (by simp)
        (by simp [hk, hheader, hbody, he, hn, Role.Fits]))
  refine .look (relabels_nextIs _) fun _ => .ite ?_ ?_
  · refine .bind (relabels_soundMark _) fun s hs => .bind (hg.expression _) fun x hx => ?_
    have hheader : Sound [(Role.initializer, first), s, (Role.condition, x)] := by
      simp [hfirst, hs, hx, Role.Fits]
    simpa using hrest hheader
  · split
    · rename_i r x
      have hx : Sound x := ((sound_cons _ _).mp ((sound_branch _ _).mp hfirst).2.2).1.2
      have hheader : Sound [(Role.condition, x)] := by simp [hx, Role.Fits]
      simpa using hrest hheader
    · rename_i hne
      split
      · rename_i heq
        simp only [relabel_eq_branch_iff, relabel_eq_cons_iff, relabel_eq_part_iff,
          relabel_eq_nil_iff] at heq
        obtain ⟨_, rfl, _, _, rfl, ⟨_, rfl, -⟩, rfl⟩ := heq
        exact absurd rfl (hne _ _)
      · exact .failure_bind

/-- An expression as a part in a role that every node can play. -/
theorem relabels_expressionInRole (r : Role) (c : Context) (hr : ∀ n : Node, r.Fits n) :
    Relabels φ SoundParts (inRole r (g.expression c)) (inRole r (g.expression c)) :=
  relabels_inRole r (hg.expression c) fun n hn => ⟨hr n, hn⟩

omit hg in
theorem relabels_eitherMark (s t : String) :
    Relabels φ Sound (mark s <|> mark t) (mark s <|> mark t) :=
  .orElse (relabels_soundMark s) (relabels_soundMark t)

theorem relabels_rangeClause : Relabels φ Sound (rangeClause g) (rangeClause g) := by
  have hleft : Relabels φ Sound (do
      let l ← expressionList g atHeader
      let op ← mark ":=" <|> mark "="
      return [(Role.left, l), op] : Parser Parts) (do
      let l ← expressionList g atHeader
      let op ← mark ":=" <|> mark "="
      return [(Role.left, l), op]) :=
    .bind (relabels_expressionList hg _) fun _ hl => .bind (relabels_eitherMark _ _) fun _ hop =>
      .pure (by simp) (by simp [hl, hop, Role.Fits])
  refine relabels_plainPhrase _ ?_ fun _ => trivial
  exact .bind (relabels_orNothing hleft) fun _ hleft => .bind (relabels_soundMark _) fun _ hr =>
    .bind (hg.expression _) fun _ hx => .pure (by simp) (by simp [hleft, hr, hx, Role.Fits])

theorem relabels_forClause : Relabels φ Sound (forClause g) (forClause g) := by
  have hsimple (r : Role) (c right : Context) (hr : ∀ n : Node, r.Fits n) : Relabels φ Sound
      (orNothing (inRole r (simpleStatement g c right)))
      (orNothing (inRole r (simpleStatement g c right))) :=
    relabels_orNothing
      (relabels_inRole r (relabels_simpleStatement hg _ _) fun n hn => ⟨hr n, hn⟩).ofParts
  refine relabels_plainPhrase _ ?_ fun _ => trivial
  exact .bind (hsimple .initializer _ _ fun _ => trivial) fun _ hinitial =>
    .bind (relabels_soundMark _) fun _ hs =>
    .bind (relabels_orNothing
      (relabels_expressionInRole hg .condition _ fun _ => trivial).ofParts) fun _ hc =>
    .bind (relabels_soundMark _) fun _ hs' =>
    .bind (hsimple .update _ _ fun _ => trivial) fun _ hupdate =>
      .pure (by simp) (by simp [hinitial, hs, hc, hs', hupdate])

theorem relabels_forNode : Relabels φ Sound (forNode g) (forNode g) := by
  refine relabels_plainPhrase _ (.bind (relabels_soundMark _) fun k hk =>
    .look (relabels_nextIs _) fun _ => .ite (.bind hg.block fun _ hb =>
      .pure (by simp) (by simp [hk, hb, Role.Fits])) ?_) fun _ => trivial
  have hloop {p : Parser Node} (hp : Relabels φ Sound p p) : Relabels φ SoundParts (do
      return [k, (Role.part, ← p), (Role.body, ← g.block)] : Parser Parts) (do
      return [relabel φ k, (Role.part, ← p), (Role.body, ← g.block)]) :=
    .bind hp fun _ hn => .bind hg.block fun _ hb =>
      .pure (by simp) (by simp [hk, hn, hb, Role.Fits])
  exact .orElse (hloop (relabels_rangeClause hg)) <|
    .orElse (hloop (relabels_forClause hg)) (hloop (hg.expression _))

theorem relabels_cases (kind : Kind) (hkind : ∀ cs, kind.Admits cs) {header : Parser Parts}
    (hheader : Relabels φ SoundParts header header) :
    Relabels φ SoundParts (cases g kind header) (cases g kind header) := by
  refine .bind (relabels_soundMark _) fun _ hl => .bind (relabels_many (P := Sound)
    (.look (relabels_nextIs _) fun _ =>
      .ite (relabels_part (relabels_plainPhrase _ ?_ ?_)).ofParts
        (relabels_part (relabels_plainPhrase _ ?_ hkind)).ofParts)) fun _ hcs =>
        .bind (relabels_soundMark _) fun _ hr => .pure (by simp) (by simpa using ⟨hl, hcs, hr⟩)
  · exact .bind (relabels_soundMark _) fun _ hd => .bind (relabels_soundMark _) fun _ hc =>
      .bind (relabels_statements hg) fun _ hs => .pure (by simp) (by simp [hd, hc, hs])
  · exact fun _ => trivial
  · exact .bind (relabels_soundMark _) fun _ hk => .bind hheader fun _ hh =>
      .bind (relabels_soundMark _) fun _ hc => .bind (relabels_statements hg) fun _ hs =>
        .pure (by simp) (by simp [hk, hh.2, hc, hs])

omit hg in
theorem relabels_typeMark : Relabels φ Sound typeMark typeMark :=
  .bind (relabels_soundMark _) fun _ h₁ => .bind (relabels_soundMark _) fun _ h₂ =>
    .bind (relabels_soundMark _) fun _ h₃ => .bind (relabels_soundMark _) fun _ h₄ =>
      .pure (by simp) (by simp [h₁, h₂, h₃, h₄])

theorem relabels_typeSwitchHeader :
    Relabels φ Sound (typeSwitchHeader g) (typeSwitchHeader g) := by
  have hshorthand : Relabels φ Sound (do
      let l ← expressionList g atHeader
      return [(Role.symbol, l), ← mark ":="] : Parser Parts) (do
      let l ← expressionList g atHeader
      return [(Role.symbol, l), ← mark ":="]) :=
    .bind (relabels_expressionList hg _) fun _ hl => .bind (relabels_soundMark _) fun _ hm =>
      .pure (by simp) (by simp [hl, hm, Role.Fits])
  refine .bind (relabels_orNothing hshorthand) fun _ hs => ?_
  rw [isEmpty_relabel]
  exact .bind (hg.expression _) fun _ hx => .bind relabels_typeMark fun _ hm =>
    .pure (by simp) (by simp [hs, hx, hm, Role.Fits])

theorem relabels_typeCases : Relabels φ SoundParts (typeCases g) (typeCases g) :=
  relabels_cases hg .typeCase (fun _ => trivial) <| relabels_separated
    (relabels_inRole .type (relabels_soundType hg _) fun _ hn => ⟨trivial, hn⟩) _

theorem relabels_valueCases : Relabels φ SoundParts (valueCases g) (valueCases g) :=
  relabels_cases hg .expressionCase (fun _ => trivial) <|
    relabels_inRole .value (relabels_expressionList hg _) fun _ hn => ⟨trivial, hn⟩

theorem relabels_afterSwitch {front : Parts} (hfront : Sound front) :
    Relabels φ Sound (afterSwitch g front) (afterSwitch g (relabel φ front)) := by
  have hvalues {value : Parts} (hvalue : Sound value) : Relabels φ Sound
      (valueCases g >>= fun cs =>
        pure (Node.branch .expressionSwitchStatement (front ++ value ++ cs)))
      (valueCases g >>= fun cs => pure
        (Node.branch .expressionSwitchStatement (relabel φ front ++ relabel φ value ++ cs))) :=
    .bind (relabels_valueCases hg) fun _ hcs => .pure (by simp)
      ((sound_branch _ _).mpr ⟨trivial, by simp [hcs.1], by simp [hfront, hvalue, hcs.2]⟩)
  refine .orElse ?_ (.look (relabels_nextIs _) fun _ => .ite (.pure_bind (hvalues sound_nil)) ?_)
  · exact .bind (relabels_typeSwitchHeader hg) fun _ hh => .bind (relabels_typeCases hg)
      fun _ hcs => .pure (by simp) ((sound_branch _ _).mpr
        ⟨trivial, by simp [hcs.1], by simp [hfront, hh, hcs.2]⟩)
  · exact .bind (relabels_expressionInRole hg .value _ fun _ => trivial) fun _ hv => hvalues hv.2

theorem relabels_switchNode : Relabels φ Sound (switchNode g) (switchNode g) := by
  refine .bind (relabels_soundMark _) fun k hk => .orElse ?_ ?_
  · refine .bind (relabels_simpleStatement hg _ _) fun first hfirst =>
      .bind (relabels_soundMark _) fun s hs => ?_
    have hfront : Sound [k, (Role.initializer, first), s] := by simp [hk, hfirst, hs, Role.Fits]
    simpa using relabels_afterSwitch hg hfront
  · have hfront : Sound [k] := by simpa using hk
    simpa using relabels_afterSwitch hg hfront

theorem relabels_communication : Relabels φ Sound (communication g) (communication g) := by
  refine .orElse (relabels_plainPhrase _ ?assigning fun _ => trivial) <|
    .orElse (relabels_plainPhrase _ ?sending fun _ => trivial) <|
      relabels_plainPhrase _ (relabels_expressionInRole hg _ _ fun _ => trivial) fun _ => trivial
  case assigning =>
    exact .bind (relabels_expressionList hg _) fun _ hl => .bind (relabels_eitherMark _ _)
      fun _ hop => .bind (hg.expression _) fun _ hx =>
        .pure (by simp) (by simp [hl, hop, hx, Role.Fits])
  case sending =>
    exact .bind (hg.expression _) fun _ hx => .bind (relabels_soundMark _) fun _ ha =>
      .bind (hg.expression _) fun _ hv => .pure (by simp) (by simp [hx, ha, hv, Role.Fits])

theorem relabels_selectNode : Relabels φ Sound (selectNode g) (selectNode g) := by
  have hcases : Relabels φ SoundParts
      (cases g .communicationCase (inRole .communication (communication g)))
      (cases g .communicationCase (inRole .communication (communication g))) :=
    relabels_cases hg .communicationCase (fun _ => trivial) <|
      relabels_inRole .communication (relabels_communication hg) fun _ hn => ⟨trivial, hn⟩
  refine relabels_plainPhrase _ ?_ fun _ => trivial
  exact .bind (relabels_soundMark _) fun _ hk => .bind hcases fun _ hcs =>
    .pure (by simp) (by simp [hk, hcs.2])

omit hg in
theorem relabels_jump {kind : Kind} (keyword : String) (hkind : ∀ cs, kind.Admits cs) :
    Relabels φ Sound (jump kind keyword) (jump kind keyword) := by
  refine relabels_plainPhrase _ (.bind (relabels_soundMark _) fun k hk => ?_) hkind
  have hbare : Relabels φ SoundParts (pure [k] : Parser Parts) (pure [relabel φ k]) :=
    .pure (by simp) (by simpa using hk)
  have hlabel : Relabels φ SoundParts (do return [k, (Role.label, ← name .labelName)] : Parser Parts)
      (do return [relabel φ k, (Role.label, ← name .labelName)]) :=
    .bind (relabels_name _) fun _ hn => .pure (by simp) (by simp [hk, hn.sound, Role.Fits])
  exact .peek (.ite hlabel hbare) fun _ _ => .ite hlabel hbare

theorem relabels_returnNode : Relabels φ Sound (returnNode g) (returnNode g) := by
  have hvalues := relabels_orNothing (relabels_part (relabels_expressionList hg atRight)).ofParts
  refine relabels_plainPhrase _ (.bind (relabels_soundMark _) fun k hk => ?_) fun _ => trivial
  have hbare : Relabels φ SoundParts (pure [k] : Parser Parts) (pure [relabel φ k]) :=
    .pure (by simp) (by simpa using hk)
  have hmore : Relabels φ SoundParts
      (do return k :: (← orNothing (inRole .part (expressionList g atRight))) : Parser Parts)
      (do return relabel φ k :: (← orNothing (inRole .part (expressionList g atRight)))) :=
    .bind hvalues fun _ hvs => .pure (by simp) (by simp [hk, hvs])
  exact .peek (.ite hbare hmore) fun _ _ => .ite hbare hmore

theorem relabels_labeled : Relabels φ Sound (labeled g) (labeled g) :=
  relabels_plainPhrase _ (.bind (relabels_name _) fun _ hn => .bind (relabels_soundMark _)
    fun _ hc => .bind hg.statement fun _ hs =>
      .pure (by simp) (by simp [hn.sound, hc, hs, Role.Fits])) fun _ => trivial

theorem relabels_keywordStatement? (t : Token) :
    ∀ p ∈ keywordStatement? g t, Relabels φ Sound p p := by
  have hprefixed {kind : Kind} (s : String) (hkind : ∀ cs, kind.Admits cs) :
      Relabels φ Sound (phrase kind do
        let k ← mark s
        return [k, (Role.part, ← g.expression atRight)]) (phrase kind do
        let k ← mark s
        return [k, (Role.part, ← g.expression atRight)]) :=
    relabels_plainPhrase _ (.bind (relabels_soundMark _) fun _ hk => .bind (hg.expression _)
      fun _ hx => .pure (by simp) (by simp [hk, hx, Role.Fits])) hkind
  refine forall_mem_ite (forall_mem_some (relabels_declaration hg)) <|
    forall_mem_ite (forall_mem_some (relabels_returnNode hg)) <|
    forall_mem_ite (forall_mem_some (hprefixed _ fun _ => trivial)) <|
    forall_mem_ite (forall_mem_some (hprefixed _ fun _ => trivial)) <|
    forall_mem_ite (forall_mem_some hg.ifStatement) <|
    forall_mem_ite (forall_mem_some (relabels_forNode hg)) <|
    forall_mem_ite (forall_mem_some (relabels_switchNode hg)) <|
    forall_mem_ite (forall_mem_some (relabels_selectNode hg)) <|
    forall_mem_ite (forall_mem_some (relabels_jump _ fun _ => trivial)) <|
    forall_mem_ite (forall_mem_some (relabels_jump _ fun _ => trivial)) <|
    forall_mem_ite (forall_mem_some (relabels_plainPhrase _ ?goto fun _ => trivial)) <|
    forall_mem_ite (forall_mem_some (relabels_plainPhrase _ ?fallthrough fun _ => trivial))
      fun p hp => absurd hp (Option.not_mem_none p)
  case goto =>
    exact .bind (relabels_soundMark _) fun _ hk => .bind (relabels_name _) fun _ hn =>
      .pure (by simp) (by simp [hk, hn.sound, Role.Fits])
  case fallthrough =>
    exact .bind (relabels_soundMark _) fun _ hk => .pure (by simp) (by simpa using hk)

theorem relabels_statementNode : Relabels φ Sound (statementNode g) (statementNode g) := by
  refine .peek .failure fun t _ => ?_
  have hkeyword : keywordStatement? g (relabel φ t) = keywordStatement? g t := rfl
  dsimp only
  rw [hkeyword]
  split
  · rename_i p hp
    exact relabels_keywordStatement? hg t p hp
  · refine .ite hg.block (.ite (relabels_plainPhrase _ ?_ fun _ => trivial) (.get fun ts _ => ?_))
    · exact .bind (relabels_soundMark _) fun _ hk => .pure (by simp) (by simpa using hk)
    · have htail : (relabel φ ts).tail.head?.any (fun c => c.is ":" && !c.afterLineFeed) =
          ts.tail.head?.any (fun c => c.is ":" && !c.afterLineFeed) := by
        match ts with
        | [] => rfl
        | [_] => rfl
        | _ :: _ :: _ => rfl
      rw [htail]
      exact .ite (relabels_labeled hg) (relabels_simpleStatement hg _ _)

/-! ### All phrases -/

theorem Grammar.uniform_next : g.next.Uniform φ where
  expression := relabels_binaryNode hg
  unary := relabels_unaryNode hg
  type := relabels_typeNode hg
  statement := relabels_statementNode hg
  block := relabels_blockNode hg
  ifStatement := relabels_ifNode hg
  literalValue := relabels_literalValueNode hg

theorem Grammar.uniform_deepen (depth : Nat) : (g.deepen depth).Uniform φ := by
  induction depth generalizing g with
  | zero => exact hg
  | succ depth ih => exact ih (Grammar.uniform_next hg)

omit hg

theorem uniform_grammar (depth : Nat) : (grammar depth).Uniform φ :=
  Grammar.uniform_deepen Grammar.uniform_empty depth

/-! ### Files -/

theorem relabels_importSpec : Relabels φ Sound importSpec importSpec := by
  have hname : Relabels φ SoundParts (inRole .name <|
        token .dot "." <|> token .blankIdentifier "_" <|> name .packageIdentifier)
      (inRole .name <| token .dot "." <|> token .blankIdentifier "_" <|> name .packageIdentifier) :=
    relabels_inRole (P := fun n => n.IsToken ∧ Sound n) .name (.orElse
      ((relabels_token .dot ".").imp fun n ⟨_, hn, htext⟩ => hn ▸ ⟨trivial, htext⟩) <|
        .orElse ((relabels_token .blankIdentifier "_").imp fun n ⟨_, hn, htext⟩ =>
          hn ▸ ⟨trivial, htext⟩) <|
          (relabels_name .packageIdentifier).imp fun _ hn => ⟨hn.isToken, hn.sound⟩) fun _ hn => hn
  refine relabels_plainPhrase _ (.bind (relabels_orNothing hname.ofParts) fun n hn => .peek .failure
    fun t _ => ?_) fun _ => trivial
  have hpath (k : Kind) : Relabels φ SoundParts (do return n ++ [(Role.path, ← take k)] : Parser Parts)
      (do return relabel φ n ++ [(Role.path, ← take k)]) :=
    .bind (relabels_soundTake k) fun _ hp => .pure (by simp) (by simp [hn, hp, Role.Fits])
  exact .ite (hpath _) (.ite (hpath _) .failure)

theorem relabels_importSpecList : Relabels φ Sound importSpecList importSpecList := by
  have hspec := relabels_part (relabels_importSpec (φ := φ))
  have hmore : Relabels φ Sound (do
      let e ← terminator
      let s ← inRole .part importSpec
      return e ++ s) (do
      let e ← terminator
      let s ← inRole .part importSpec
      return e ++ s) :=
    .bind relabels_terminator fun _ he => .bind hspec fun _ hs =>
      .pure (by simp) (by simp [he, hs.2])
  refine relabels_plainPhrase _ (.bind (relabels_soundMark _) fun _ hl =>
    .bind (relabels_orNothing ?_) fun _ hspecs => .bind (relabels_soundMark _) fun _ hr =>
      .pure (by simp) (by simp [hl, hspecs, hr])) fun _ => trivial
  exact .bind hspec fun _ hfirst => .bind (relabels_many hmore) fun _ hrest =>
    .bind (relabels_orNothing relabels_terminator) fun _ hlast =>
      .pure (by simp) (by simpa using ⟨hfirst.2, hrest, hlast⟩)

theorem relabels_importDeclaration : Relabels φ Sound importDeclaration importDeclaration :=
  relabels_plainPhrase _ (.bind (relabels_soundMark _) fun _ hk => .look (relabels_nextIs _)
    fun _ => .ite
      (.bind relabels_importSpecList fun _ hs => .pure (by simp) (by simp [hk, hs, Role.Fits]))
      (.bind relabels_importSpec fun _ hs => .pure (by simp) (by simp [hk, hs, Role.Fits])))
    fun _ => trivial

include hg

theorem relabels_body : Relabels φ Sound (body g) (body g) :=
  .look (relabels_continuesWith _ _) fun _ => .ite
    (relabels_inRole .body hg.block fun _ hn => ⟨trivial, hn⟩).ofParts (.pure rfl sound_nil)

theorem relabels_functionDeclaration :
    Relabels φ Sound (functionDeclaration g) (functionDeclaration g) := by
  have hresult := relabels_result hg (relabels_simpleType hg) true
  refine .bind (relabels_soundMark _) fun k hk => .look (relabels_nextIs _) fun _ =>
    .ite (relabels_plainPhrase _ ?method fun _ => trivial)
      (relabels_plainPhrase _ ?function fun _ => trivial)
  case method =>
    exact .bind (relabels_soundParameterList hg) fun _ hreceiver => .bind (relabels_name _)
      fun _ hn => .bind (relabels_soundParameterList hg) fun _ hps => .bind hresult fun _ hr =>
      .bind (relabels_body hg) fun _ hb => .pure (by simp)
        (by simp [hk, hreceiver, hn.isToken, hn.sound, hps, hr, hb, Role.Fits])
  case function =>
    refine .bind (relabels_name _) fun n hn => ?_
    have hrest {ts : Parts} (hts : Sound ts) : Relabels φ SoundParts (do
        let ps ← parameterList g
        let r ← result g (simpleType g) true
        return [k, (Role.name, n)] ++ ts ++ [(Role.parameters, ps)] ++ r ++ (← body g) : Parser Parts) (do
        let ps ← parameterList g
        let r ← result g (simpleType g) true
        return [relabel φ k, (Role.name, relabel φ n)] ++ relabel φ ts ++ [(Role.parameters, ps)] ++ r ++
          (← body g)) :=
      .bind (relabels_soundParameterList hg) fun _ hps => .bind hresult fun _ hr =>
      .bind (relabels_body hg) fun _ hb => .pure (by simp)
        (by simp [hk, hn.isToken, hn.sound, hts, hps, hr, hb, Role.Fits])
    exact .look (relabels_nextIs _) fun _ => .ite
      (.bind (relabels_inRole .typeParameters (relabels_typeParameters hg)
        fun _ hn => ⟨trivial, hn⟩) fun _ hts => hrest hts.2) (.pure_bind (hrest sound_nil))

theorem relabels_topLevel : Relabels φ Sound (topLevel g) (topLevel g) := by
  have hstatement := relabels_statementNode hg
  refine .look (relabels_nextIs _) fun _ => .ite (relabels_plainPhrase _ ?_ fun _ => trivial) <|
    .look (relabels_nextIs _) fun _ => .ite relabels_importDeclaration <|
      .look (relabels_nextIs _) fun _ =>
        .ite (.orElse (relabels_functionDeclaration hg) hstatement) hstatement
  exact .bind (relabels_soundMark _) fun _ hk => .bind (relabels_name _) fun _ hn =>
    .pure (by simp) (by simp [hk, hn.sound, Role.Fits])

/-- A file, which may have no parts. -/
theorem relabels_fileNode : Relabels φ (fun root => ∃ cs, root = .branch .sourceFile cs ∧ Sound cs)
    (fileNode g) (fileNode g) := by
  have hitem := (relabels_part (relabels_topLevel hg)).ofParts
  have hterminated : Relabels φ Sound (do
      let x ← inRole .part (topLevel g)
      return x ++ (← terminator)) (do
      let x ← inRole .part (topLevel g)
      return x ++ (← terminator)) :=
    .bind hitem fun _ hx => .bind relabels_terminator fun _ he =>
      .pure (by simp) (by simp [hx, he])
  exact relabels_phrase _ (.bind (relabels_many hterminated) fun _ hitems =>
    .bind (relabels_orNothing hitem) fun _ hlast =>
      .pure (P := Sound) (by simp) (by simpa using ⟨hitems, hlast⟩)) fun cs hcs => ⟨cs, rfl, hcs⟩

end ProviderCatalog.Go
