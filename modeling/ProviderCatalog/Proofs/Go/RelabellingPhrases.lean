import ProviderCatalog.Go.Grammar.Expression
import ProviderCatalog.Proofs.Go.Relabelling

/-!
# Relabelling types and expressions

The parsers of types, signatures and expressions make the same of relabelled tokens, up to
relabelling, if the parsers of the phrases inside do. They look at the texts of what they have made
so far, at its kinds and at its parts, none of which relabelling changes.

## Main results

* `relabel_declarations`, `sound_declarations`: the declarations of parameters.
* `relabels_simpleType`, `relabels_typeNode`: types.
* `typeOfExpression?_relabel`: types that are spelled as expressions.
* `relabels_splitting`: tokens that are cut in two.
* `relabels_literalValueNode`, `relabels_unaryNode`, `relabels_binaryNode`: expressions.
-/

namespace ProviderCatalog.Go

variable {φ : Relabelling}

theorem relabels_soundMark (s : String) : Relabels φ Sound (mark s) (mark s) :=
  (relabels_mark s).imp fun _ h => h.sound

theorem relabels_soundTake (k : Kind) : Relabels φ Sound (take k) (take k) :=
  (relabels_take k).imp fun _ h => h.sound

/-- A phrase that is a type. -/
theorem relabels_typePhrase {k : Kind} {p p' : Parser Parts} (hp : Relabels φ SoundParts p p')
    (hk : ∀ cs, k.Admits cs) (htype : typeKinds.contains k = true) :
    Relabels φ Node.IsSoundType (phrase k p) (phrase k p') :=
  relabels_phrase k hp fun cs hcs => ⟨(sound_branch k cs).mpr ⟨hk cs, hcs⟩, htype⟩

/-- A name as a part in a role. -/
theorem relabels_nameInRole (r : Role) (k : Kind) (h : ∀ n : Node, n.IsToken → r.Fits n) :
    Relabels φ SoundParts (inRole r (name k)) (inRole r (name k)) :=
  relabels_inRole r (relabels_name k) fun n hn => ⟨h n hn.isToken, hn.sound⟩

/-! ### Signatures -/

namespace Parameter

/-- A parameter with what precedes each token replaced. -/
def relabelled (φ : Relabelling) : Parameter → Parameter
  | bare n => bare (relabel φ n)
  | named n t => named (relabel φ n) (relabel φ t)
  | typed t => typed (relabel φ t)
  | variadic parts => variadic (relabel φ parts)

/-- The names of a parameter are tokens, and it has the shapes of its kinds. -/
def IsSound : Parameter → Prop
  | bare n => n.IsToken ∧ Sound n
  | named n t => (n.IsToken ∧ Sound n) ∧ Sound t
  | typed t => Sound t
  | variadic parts => SoundParts parts

end Parameter

instance : Labelled Parameter := ⟨Parameter.relabelled, Parameter.IsSound⟩

instance : Labelled (Parameter × Parts) :=
  ⟨fun φ x => (relabel φ x.1, relabel φ x.2), fun x => Sound x.1 ∧ Sound x.2⟩

@[simp] theorem relabel_bare (n : Node) :
    relabel φ (Parameter.bare n) = .bare (relabel φ n) := rfl

@[simp] theorem relabel_named (n t : Node) :
    relabel φ (Parameter.named n t) = .named (relabel φ n) (relabel φ t) := rfl

@[simp] theorem relabel_typed (t : Node) :
    relabel φ (Parameter.typed t) = .typed (relabel φ t) := rfl

@[simp] theorem relabel_variadic (parts : Parts) :
    relabel φ (Parameter.variadic parts) = .variadic (relabel φ parts) := rfl

@[simp] theorem relabel_parameter (x : Parameter) (comma : Parts) :
    relabel φ (x, comma) = (relabel φ x, relabel φ comma) := rfl

@[simp] theorem relabel_asType (n : Node) : relabel φ (asType n) = asType (relabel φ n) := by
  cases n <;> simp [asType]

theorem sound_asType {n : Node} (h : Sound n) : Sound (asType n) := by
  cases n with
  | leaf k leading text => exact h
  | branch k cs => exact h

@[simp] theorem relabel_unnamed (pending : Parts) :
    relabel φ (unnamed pending) = unnamed (relabel φ pending) := by
  fun_induction unnamed pending with
  | case1 => rfl
  | case2 comma rest ih => simp [unnamed, ih]
  | case3 rest r n hr ih => simp [unnamed, ih]

theorem sound_unnamed {pending : Parts} (h : Sound pending) : Sound (unnamed pending) := by
  fun_induction unnamed pending with
  | case1 => exact h
  | case2 comma rest ih => simp_all
  | case3 rest r n hr ih =>
    obtain ⟨⟨-, hn⟩, hrest⟩ := (sound_cons _ _).mp h
    refine (sound_append _ _).mpr ⟨ih hrest, (sound_cons _ _).mpr ⟨⟨trivial, ?_⟩, sound_nil⟩⟩
    exact (sound_branch _ _).mpr ⟨trivial, by simp, by simpa using ⟨trivial, sound_asType hn⟩⟩

@[simp] theorem relabel_declarations (pending : Parts) (ps : List (Parameter × Parts)) :
    relabel φ (declarations pending ps) = declarations (relabel φ pending) (relabel φ ps) := by
  fun_induction declarations pending ps with
  | case1 pending => simp [declarations]
  | case2 pending n comma rest ih => simp [declarations, ih]
  | case3 pending n t comma rest ih => simp [declarations, ih]
  | case4 pending t comma rest ih => simp [declarations, ih]
  | case5 pending parts comma rest ih => simp [declarations, ih]

/-- A phrase of a kind that admits all parts, as a part without a role. -/
theorem sound_phrase {k : Kind} {cs : Parts} (hk : k.Admits cs) (hcs : SoundParts cs) :
    Sound (Role.part, Node.branch k cs) :=
  ⟨trivial, (sound_branch k cs).mpr ⟨hk, hcs⟩⟩

theorem sound_declarations {pending : Parts} {ps : List (Parameter × Parts)}
    (hpending : Sound pending) (hps : Sound ps) : Sound (declarations pending ps) := by
  have hdeclared {cs : Parts} (hcs : SoundParts cs) :
      Sound (Role.part, Node.branch .parameterDeclaration cs) := sound_phrase trivial hcs
  fun_induction declarations pending ps with
  | case1 pending => exact sound_unnamed hpending
  | case2 pending n comma rest ih =>
    obtain ⟨⟨hn, hcomma⟩, hrest⟩ := (sound_cons _ _).mp hps
    exact ih (by simpa using ⟨hcomma, hn, hpending⟩) hrest
  | case3 pending n t comma rest ih =>
    obtain ⟨⟨⟨hn, ht⟩, hcomma⟩, hrest⟩ := (sound_cons _ _).mp hps
    refine (sound_append _ _).mpr ⟨(sound_cons _ _).mpr ⟨hdeclared ?_, hcomma⟩, ih sound_nil hrest⟩
    exact ⟨by simp, by simpa using ⟨hpending, hn, trivial, ht⟩⟩
  | case4 pending t comma rest ih =>
    obtain ⟨⟨ht, hcomma⟩, hrest⟩ := (sound_cons _ _).mp hps
    have htype : SoundParts [(Role.type, t)] := ⟨by simp, by simpa using ⟨trivial, ht⟩⟩
    exact (sound_append _ _).mpr ⟨(sound_append _ _).mpr
      ⟨sound_unnamed hpending, (sound_cons _ _).mpr ⟨hdeclared htype, hcomma⟩⟩, ih sound_nil hrest⟩
  | case5 pending parts comma rest ih =>
    obtain ⟨⟨hparts, hcomma⟩, hrest⟩ := (sound_cons _ _).mp hps
    have hvariadic : Sound (Role.part, Node.branch .variadicParameterDeclaration parts) :=
      sound_phrase trivial hparts
    exact (sound_append _ _).mpr ⟨(sound_append _ _).mpr
      ⟨sound_unnamed hpending, (sound_cons _ _).mpr ⟨hvariadic, hcomma⟩⟩, ih sound_nil hrest⟩

variable {g : Grammar} (hg : g.Uniform φ)

section Types

include hg

theorem relabels_soundType (lineFeedEnds : Bool) :
    Relabels φ Sound (g.type lineFeedEnds) (g.type lineFeedEnds) :=
  (hg.type lineFeedEnds).imp fun _ h => h.1

theorem relabels_typeElement (lineFeedEnds : Bool) :
    Relabels φ Sound (typeElement g lineFeedEnds) (typeElement g lineFeedEnds) :=
  relabels_plainPhrase _
    (relabels_separatedOn (relabels_part (relabels_soundType hg lineFeedEnds)) lineFeedEnds _)
    fun _ => trivial

theorem relabels_typeArguments : Relabels φ Sound (typeArguments g) (typeArguments g) := by
  have helements := relabels_separated (relabels_part (relabels_typeElement hg false)) ","
  refine relabels_plainPhrase _ ?_ fun _ => trivial
  exact .bind (relabels_soundMark _) fun _ hl => .bind helements fun _ hts =>
    .bind (relabels_optionalMark _) fun _ hc => .bind (relabels_soundMark _) fun _ hr =>
      .pure (by simp) (by simp [hl, hts.2, hc, hr])

theorem relabels_namedType (lineFeedEnds : Bool) :
    Relabels φ Node.IsSoundType (namedType g lineFeedEnds) (namedType g lineFeedEnds) := by
  -- the arguments that can follow a type as it is made so far
  have harguments (base : Node) (hbase : base.IsSoundType) : Relabels φ Node.IsSoundType (do
        if ← continuesWith lineFeedEnds "[" then
          (do
            let arguments ← typeArguments g
            return Node.branch .genericType [(Role.type, base), (Role.typeArguments, arguments)]) <|>
              return base
        else return base) (do
        if ← continuesWith lineFeedEnds "[" then
          (do
            let arguments ← typeArguments g
            return Node.branch .genericType
              [(Role.type, relabel φ base), (Role.typeArguments, arguments)]) <|>
              return relabel φ base
        else return relabel φ base) := by
    refine .look (relabels_continuesWith _ _) fun _ => .ite (.orElse
      (.bind (relabels_typeArguments hg) fun arguments ha => .pure (by simp) ⟨?_, rfl⟩)
      (.pure rfl hbase)) (.pure rfl hbase)
    exact (sound_branch _ _).mpr
      ⟨trivial, by simp, by simpa using ⟨⟨trivial, hbase.1⟩, trivial, ha⟩⟩
  refine .bind (relabels_name _) fun first hfirst => ?_
  obtain ⟨leading, text, rfl, htext⟩ := hfirst
  refine .look (relabels_continuesWith _ _) fun _ =>
    .ite ?_ (.pure_bind (harguments _ ⟨htext, rfl⟩))
  refine .bind (relabels_soundMark _) fun dot hdot => .bind (relabels_name _) fun n hn => ?_
  refine .pure_bind ?_
  have hqualified : Node.IsSoundType (.branch .qualifiedType
      [(Role.package, .leaf .packageIdentifier leading text), dot, (Role.name, n)]) :=
    ⟨(sound_branch _ _).mpr ⟨trivial, by
      simpa using ⟨⟨trivial, htext⟩, hdot, hn.isToken, hn.sound⟩⟩, rfl⟩
  simpa using harguments _ hqualified

theorem relabels_parameter : Relabels φ Sound (parameter g) (parameter g) := by
  refine .orElse ?variadic (.orElse ?named ?typed)
  case variadic =>
    refine .bind (.orElse (relabels_nameInRole .name _ fun _ h => h).ofParts (.pure rfl sound_nil))
      fun n hn => ?_
    exact .bind (relabels_soundMark _) fun dots hdots => .bind (relabels_soundType hg _) fun t ht =>
      .pure (by simp) (show SoundParts (n ++ [dots, (Role.type, t)]) by
        simp [hn, hdots, ht, Role.Fits])
  case named =>
    exact .bind (relabels_name _) fun n hn => .bind (relabels_soundType hg _) fun t ht =>
      .pure rfl ⟨⟨hn.isToken, hn.sound⟩, ht⟩
  case typed =>
    refine .bind (relabels_soundType hg _) fun t ht => ?_
    cases t with
    | leaf k leading text =>
      cases k with
      | typeIdentifier => exact .pure rfl ⟨trivial, ht⟩
      | _ => exact .pure rfl ht
    | branch k cs => 
      rw [relabel_branch]
      exact .pure (by simp) ht

theorem relabels_parameterList :
    Relabels φ (fun n => Sound n ∧ n.kind = .parameterList) (parameterList g)
      (parameterList g) := by
  refine relabels_phrase _ (P := fun cs => Kind.Admits .parameterList cs ∧ SoundParts cs) ?_
    fun cs hcs => ⟨(sound_branch _ _).mpr hcs, rfl⟩
  refine .bind (relabels_mark _) fun l hl => .bind (relabels_many (P := Sound) ?_) fun ps hps => ?_
  · refine .bind (relabels_parameter hg) fun p hp => .bind (relabels_optionalMark _) fun c hc => ?_
    rw [isEmpty_relabel]
    exact .look (relabels_nextIs _) fun _ => .ite (.pure rfl ⟨hp, hc⟩) .failure_bind
  · have hrest (comma : Parts) (hcomma : Sound comma) : Relabels φ
        (fun cs => Kind.Admits .parameterList cs ∧ SoundParts cs) (do
          let r ← mark ")"
          return l :: declarations [] ps ++ comma ++ [r]) (do
          let r ← mark ")"
          return relabel φ l :: declarations [] (relabel φ ps) ++ relabel φ comma ++ [r]) := by
      refine .bind (relabels_soundMark _) fun r hr => .pure (by simp) ⟨?_, ?_⟩
      · obtain ⟨leading, rfl, -⟩ := hl
        exact ⟨leading, _, rfl⟩
      · simp [hl.sound, sound_declarations sound_nil hps, hcomma, hr]
    rw [isEmpty_relabel]
    exact .ite (.bind (relabels_optionalMark _) hrest) (.pure_bind (hrest [] sound_nil))

theorem relabels_soundParameterList : Relabels φ Sound (parameterList g) (parameterList g) :=
  (relabels_parameterList hg).imp fun _ h => h.1

theorem relabels_typeParameterDeclaration :
    Relabels φ Sound (typeParameterDeclaration g) (typeParameterDeclaration g) := by
  have hnames := relabels_separated
    (relabels_nameInRole (φ := φ) .name .identifier fun _ h => h) ","
  refine relabels_plainPhrase _ ?_ fun _ => trivial
  exact .bind hnames fun _ hnames => .bind (relabels_typeElement hg _) fun _ ht =>
    .pure (by simp) (by simp [hnames.2, ht, Role.Fits])

theorem relabels_typeParameters : Relabels φ Sound (typeParameters g) (typeParameters g) := by
  have hdeclared := relabels_separated (relabels_part (relabels_typeParameterDeclaration hg)) ","
  refine relabels_plainPhrase _ ?_ fun _ => trivial
  exact .bind (relabels_soundMark _) fun _ hl => .bind hdeclared fun _ hps =>
    .bind (relabels_optionalMark _) fun _ hc => .bind (relabels_soundMark _) fun _ hr =>
      .pure (by simp) (by simp [hl, hps.2, hc, hr])

/-! ### Types -/

theorem relabels_fieldDeclaration :
    Relabels φ Sound (fieldDeclaration g) (fieldDeclaration g) := by
  refine relabels_plainPhrase _ (.bind (P := SoundParts) (.orElse ?named ?embedded)
    fun field hfield => ?tag) fun _ => trivial
  case named =>
    refine .bind (relabels_separated (relabels_nameInRole .name _ fun _ h => h) _)
      fun names hnames => ?_
    rw [length_relabel]
    have htyped : Relabels φ SoundParts (do
        let t ← g.type true
        return names ++ [(Role.type, t)] : Parser Parts) (do
        let t ← g.type true
        return relabel φ names ++ [(Role.type, t)]) :=
      .bind (relabels_soundType hg _) fun t ht =>
        .pure (by simp) (by simp [hnames.2, ht, Role.Fits])
    exact .peek (.ite .failure_bind htyped) fun _ _ => .ite .failure_bind htyped
  case embedded =>
    exact .bind (relabels_optionalMark _) fun _ hstar => .bind (relabels_namedType hg _) fun t ht =>
      .pure (by simp) (by simp [hstar, ht.1, Role.Fits])
  case tag =>
    have hnone : Relabels φ SoundParts (pure (field ++ []) : Parser Parts)
        (pure (relabel φ field ++ [])) := .pure (by simp) (by simpa using hfield)
    have htag (k : Kind) : Relabels φ SoundParts
        (inRole .tag (take k) >>= fun tag => pure (field ++ tag))
        (inRole .tag (take k) >>= fun tag => pure (relabel φ field ++ tag)) :=
      .bind (relabels_inRole _ (relabels_take k) fun _ hn => ⟨trivial, hn.sound⟩) fun _ htag =>
        .pure (by simp) (by simp [hfield.1, hfield.2, htag.2])
    exact .peek (.pure_bind hnone) fun t _ =>
      .ite (.pure_bind hnone) (.ite (htag _) (.ite (htag _) (.pure_bind hnone)))

omit hg in
theorem relabels_bracedElements {p : Parser Node} (hp : Relabels φ Sound p p) :
    Relabels φ SoundParts (bracedElements p) (bracedElements p) := by
  have hmore : Relabels φ Sound (do
      let e ← terminator
      let x ← inRole .part p
      return e ++ x) (do
      let e ← terminator
      let x ← inRole .part p
      return e ++ x) :=
    .bind relabels_terminator fun _ he => .bind (relabels_part hp) fun _ hx =>
      .pure (by simp) (by simp [he, hx.2])
  refine .bind (relabels_soundMark _) fun _ hl => .bind (relabels_orNothing ?_) fun _ helements =>
    .bind (relabels_soundMark _) fun _ hr => .pure (by simp) (by simp [hl, helements, hr])
  exact .bind (relabels_part hp) fun _ hfirst => .bind (relabels_many hmore) fun _ hrest =>
    .bind (relabels_orNothing relabels_terminator) fun _ hlast =>
      .pure (by simp) (by simpa using ⟨hfirst.2, hrest, hlast⟩)

theorem relabels_result {simple : Bool → Parser Node}
    (hsimple : ∀ b, Relabels φ Node.IsSoundType (simple b) (simple b)) (lineFeedEnds : Bool) :
    Relabels φ Sound (result g simple lineFeedEnds) (result g simple lineFeedEnds) :=
  .peek (.pure rfl sound_nil) fun _ _ => .ite (.pure rfl sound_nil) <|
    .ite (relabels_inRole .result (relabels_parameterList hg)
      fun _ hn => ⟨.inr hn.2, hn.1⟩).ofParts <|
    .ite (relabels_inRole .result (hsimple _) fun _ hn => ⟨.inl hn.2, hn.1⟩).ofParts
      (.pure rfl sound_nil)

theorem relabels_simpleType (lineFeedEnds : Bool) :
    Relabels φ Node.IsSoundType (simpleType g lineFeedEnds) (simpleType g lineFeedEnds) := by
  have hprefixed {k : Kind} (s : String) (hk : ∀ cs, k.Admits cs)
      (htype : typeKinds.contains k = true) : Relabels φ Node.IsSoundType (phrase k do
        let m ← mark s
        return [m, (Role.part, ← g.type lineFeedEnds)]) (phrase k do
        let m ← mark s
        return [m, (Role.part, ← g.type lineFeedEnds)]) :=
    relabels_typePhrase (.bind (relabels_soundMark _) fun _ hm =>
      .bind (relabels_soundType hg _) fun _ ht =>
        .pure (by simp) (by simp [hm, ht, Role.Fits])) hk htype
  refine .peek .failure fun t _ => ?_
  refine .ite (relabels_namedType hg _) (.ite (hprefixed _ (fun _ => trivial) rfl)
    (.ite (hprefixed _ (fun _ => trivial) rfl)
    (.ite (.look (relabels_nextAre _) fun _ => .ite ?slice ?array) (.ite ?map (.ite ?channel
      (.ite ?receiving (.ite ?function (.ite ?struct (.ite ?interface .failure)))))))))
  all_goals refine relabels_typePhrase ?_ (fun _ => trivial) rfl
  case slice =>
    exact .bind (relabels_soundMark _) fun _ hl => .bind (relabels_soundMark _) fun _ hr =>
      .bind (relabels_soundType hg _) fun _ ht => .pure (by simp) (by simp [hl, hr, ht, Role.Fits])
  case array =>
    exact .bind (relabels_soundMark _) fun _ hl => .bind (hg.expression _) fun _ hn =>
      .bind (relabels_soundMark _) fun _ hr => .bind (relabels_soundType hg _) fun _ ht =>
        .pure (by simp) (by simp [hl, hn, hr, ht, Role.Fits])
  case map =>
    exact .bind (relabels_soundMark _) fun _ hm => .bind (relabels_soundMark _) fun _ hl =>
      .bind (hg.type _) fun _ hk => .bind (relabels_soundMark _) fun _ hr =>
        .bind (relabels_soundType hg _) fun _ ht =>
          .pure (by simp) (by simp [hm, hl, hk.1, Node.isPhrase_of_isType hk.2, hr, ht, Role.Fits])
  case channel =>
    exact .bind (relabels_soundMark _) fun _ hc => .bind (relabels_optionalMark _) fun _ ha =>
      .bind (relabels_soundType hg _) fun _ ht => .pure (by simp) (by simp [hc, ha, ht, Role.Fits])
  case receiving =>
    exact .bind (relabels_soundMark _) fun _ ha => .bind (relabels_soundMark _) fun _ hc =>
      .bind (relabels_soundType hg _) fun _ ht => .pure (by simp) (by simp [ha, hc, ht, Role.Fits])
  case function =>
    exact .bind (relabels_soundMark _) fun _ hf =>
      .bind (relabels_soundParameterList hg) fun _ hps =>
      .bind (relabels_result hg hg.type _) fun _ hr =>
        .pure (by simp) (by simp [hf, hps, hr, Role.Fits])
  case struct =>
    have hfields : Relabels φ Sound
        (phrase .fieldDeclarationList (bracedElements (fieldDeclaration g)))
        (phrase .fieldDeclarationList (bracedElements (fieldDeclaration g))) :=
      relabels_plainPhrase _ (relabels_bracedElements (relabels_fieldDeclaration hg))
        fun _ => trivial
    exact .bind (relabels_soundMark _) fun _ hs => .bind hfields fun _ hfields =>
      .pure (by simp) (by simp [hs, hfields, Role.Fits])
  case interface =>
    refine .bind (relabels_soundMark _) fun _ hi => .bind (relabels_bracedElements
      (.orElse ?_ (relabels_typeElement hg _))) fun _ helements =>
        .pure (by simp) (by simp [hi, helements.2])
    refine relabels_plainPhrase _ ?_ fun _ => trivial
    exact .bind (relabels_name _) fun _ hn => .bind (relabels_soundParameterList hg) fun _ hps =>
      .bind (relabels_result hg hg.type _) fun _ hr =>
        .pure (by simp) (by simp [hn.sound, hn.isToken, hps, hr, Role.Fits])

theorem relabels_typeNode (lineFeedEnds : Bool) :
    Relabels φ Node.IsSoundType (typeNode g lineFeedEnds) (typeNode g lineFeedEnds) := by
  refine .look (relabels_nextIs _) fun _ => .ite ?_ (relabels_simpleType hg _)
  refine relabels_typePhrase ?_ (fun _ => trivial) rfl
  exact .bind (relabels_soundMark _) fun _ hl => .bind (relabels_soundType hg _) fun _ ht =>
    .bind (relabels_soundMark _) fun _ hr => .pure (by simp) (by simp [hl, ht, hr, Role.Fits])

end Types

/-! ### Types in the place of operands -/

theorem typeOfExpression?_relabel (x : Node) :
    typeOfExpression? (relabel φ x) = (typeOfExpression? x).map (relabel φ) := by
  fun_induction typeOfExpression? x with
  | case1 l s hword => simp [typeOfExpression?, hword]
  | case2 l s hword => simp [typeOfExpression?, hword]
  | case3 r l t dot r' k l' t' hword => simp [typeOfExpression?, hword]
  | case4 r l t dot r' k l' t' hword => simp [typeOfExpression?, hword]
  | case5 r l r' n ih => simp [typeOfExpression?, ih, Function.comp_def]
  | case6 => simp [typeOfExpression?]
  | case7 r base l r' index close b hb i hi hgeneric ihi ihb =>
    simp [typeOfExpression?, *]
  | case8 r base l r' index close b hb i hi hgeneric ihi ihb =>
    simp [typeOfExpression?, *]
  | case9 r base l r' index close hno ihb ihi =>
    simp only [relabel_branch, relabel_cons, relabel_part, relabel_nil]
    rw [typeOfExpression?, ihb, ihi]
    cases hb : typeOfExpression? base with
    | none => rfl
    | some b =>
      cases hi : typeOfExpression? index with
      | none => rfl
      | some i => exact absurd hi (hno b i hb)
  | case10 x hname hselector hpointer hgeneric hindex =>
    rw [typeOfExpression?]
    · rfl
    all_goals simp only [relabel_eq_leaf_iff, relabel_eq_branch_iff, relabel_eq_cons_iff,
      relabel_eq_part_iff, relabel_eq_nil_iff]
    · rintro _ _ ⟨_, rfl, -⟩
      exact hname _ _ rfl
    · rintro _ _ _ _ _ _ _ _ ⟨_, rfl, _, _, rfl, ⟨_, rfl, _, rfl, -⟩, _, _, rfl, -, _, _, rfl,
        ⟨_, rfl, _, rfl, -⟩, rfl⟩
      exact hselector _ _ _ _ _ _ _ _ rfl
    · rintro _ _ _ _ ⟨_, rfl, _, _, rfl, ⟨_, rfl, _, rfl, -⟩, _, _, rfl, ⟨_, rfl, -⟩, rfl⟩
      exact hpointer _ _ _ _ rfl
    · rintro _ ⟨_, rfl, -⟩
      exact hgeneric _ rfl
    · rintro _ _ _ _ _ _ ⟨_, rfl, _, _, rfl, ⟨_, rfl, -⟩, _, _, rfl, -, _, _, rfl, ⟨_, rfl, -⟩,
        _, _, rfl, -, rfl⟩
      exact hindex _ _ _ _ _ _ rfl

theorem isSoundType_of_typeOfExpression? {x t : Node} (h : typeOfExpression? x = some t)
    (hx : Sound x) : t.IsSoundType := by
  fun_induction typeOfExpression? x generalizing t with
  | case1 => cases h
  | case2 l s hword =>
    cases h
    exact ⟨hx, rfl⟩
  | case3 => cases h
  | case4 r l t dot r' k l' t' hword =>
    cases h
    have hparts := ((sound_branch _ _).mp hx).2.2
    refine ⟨(sound_branch _ _).mpr ⟨trivial, List.cons_ne_nil _ _, ?_⟩, rfl⟩
    simp only [sound_cons, sound_part, sound_leaf, sound_nil] at hparts ⊢
    exact ⟨⟨trivial, hparts.1.2⟩, hparts.2.1, ⟨trivial, hparts.2.2.1.2⟩, trivial⟩
  | case5 r l r' n ih =>
    obtain ⟨t, ht, rfl⟩ := Option.map_eq_some_iff.mp h
    have hparts := ((sound_branch _ _).mp hx).2.2
    refine ⟨(sound_branch _ _).mpr ⟨trivial, List.cons_ne_nil _ _, ?_⟩, rfl⟩
    simp only [sound_cons, sound_part, sound_leaf, sound_nil] at hparts ⊢
    exact ⟨⟨trivial, hparts.1.2⟩, ⟨trivial, (ih ht hparts.2.1.2).1⟩, trivial⟩
  | case6 parts =>
    cases h
    exact ⟨(sound_branch _ _).mpr ⟨trivial, ((sound_branch _ _).mp hx).2⟩, rfl⟩
  | case7 => cases h
  | case8 r base l r' index close b i hi hb hgeneric ihb ihi =>
    cases h
    have hparts := ((sound_branch _ _).mp hx).2.2
    refine ⟨(sound_branch _ _).mpr ⟨trivial, List.cons_ne_nil _ _, ?_⟩, rfl⟩
    simp only [sound_cons, sound_part, sound_branch, sound_nil] at hparts ⊢
    exact ⟨⟨trivial, (ihb hb hparts.1.2).1⟩, ⟨trivial, trivial, List.cons_ne_nil _ _, hparts.2.1,
      ⟨trivial, trivial, List.cons_ne_nil _ _, ⟨trivial, (ihi hi hparts.2.2.1.2).1⟩, trivial⟩,
      hparts.2.2.2.1, trivial⟩,
      trivial⟩
  | case9 => cases h
  | case10 => cases h

theorem literalBraces_relabel (depth : Nat) (ts : List Token) :
    literalBraces depth (relabel φ ts) = literalBraces depth ts := by
  induction ts generalizing depth with
  | nil => rfl
  | cons t ts ih =>
    simp only [relabel_cons, literalBraces, ih]
    cases ts <;> rfl

/-- Looking for the type of a literal. -/
theorem relabels_literalTypeOf? (c : Context) {x : Node} (hx : Sound x) :
    Relabels φ (fun t => ∀ t' ∈ t, Node.IsSoundType t') (literalTypeOf? c x)
      (literalTypeOf? c (relabel φ x)) := by
  have hnone : Relabels φ (fun t => ∀ t' ∈ t, Node.IsSoundType t') (pure none : Parser _)
      (pure none) := .pure rfl nofun
  refine .get fun ts _ => ?_
  rw [typeOfExpression?_relabel]
  cases ht : typeOfExpression? x with
  | none => exact hnone
  | some t =>
    have hsome : Relabels φ (fun t => ∀ t' ∈ t, Node.IsSoundType t') (pure (some t) : Parser _)
        (pure (some (relabel φ t))) :=
      .pure rfl fun t' ht' => Option.mem_some.mp ht' ▸ isSoundType_of_typeOfExpression? ht hx
    have hname : isLiteralName (relabel φ t) = isLiteralName t := by simp [isLiteralName]
    simp only [Option.map_some, hname, kind_relabel, literalBraces_relabel]
    split
    · exact hnone
    · refine .ite hsome (.ite hnone ?_)
      split
      · exact hsome
      · exact hnone

section Expressions

include hg

/-! ### Literals -/

theorem relabels_literalElement :
    Relabels φ (fun n => Sound n ∧ n.IsPhrase) (literalElement g) (literalElement g) :=
  relabels_phrase _ (.look (relabels_nextIs _) fun _ =>
    .ite (relabels_part hg.literalValue) (relabels_part (hg.expression _)))
    fun _ hcs => ⟨(sound_branch _ _).mpr ⟨trivial, hcs⟩, rfl, rfl⟩

theorem relabels_literalItem : Relabels φ SoundParts (literalItem g) (literalItem g) := by
  refine .bind (relabels_literalElement hg) fun first hfirst =>
    .look (relabels_nextIs _) fun _ => .ite ?_ (.pure (by simp) (by simp [hfirst.1, Role.Fits]))
  refine .bind (relabels_mark _) fun colon hcolon => .bind (relabels_literalElement hg)
    fun value hvalue => .pure (by simp) ?_
  have hkeyed : Sound (Role.part,
      Node.branch .keyedElement [(Role.key, first), colon, (Role.value, value)]) := by
    exact sound_phrase rfl (by simp [hfirst, hcolon.sound, hvalue.1, Role.Fits])
  simpa using hkeyed

theorem relabels_literalValueNode :
    Relabels φ Sound (literalValueNode g) (literalValueNode g) := by
  have hitems := relabels_orNothing (relabels_separated (relabels_literalItem hg) ",").ofParts
  refine relabels_plainPhrase _ ?_ fun _ => trivial
  exact .bind (relabels_soundMark _) fun _ hl => .bind hitems fun _ hitems =>
    .bind (relabels_optionalMark _) fun _ hc => .bind (relabels_soundMark _) fun _ hr =>
      .pure (by simp) (by simp [hl, hitems, hc, hr])

/-! ### Operands -/

theorem relabels_conversion {t : Node} (ht : Sound t) :
    Relabels φ Sound (conversion g t) (conversion g (relabel φ t)) := by
  refine relabels_plainPhrase _ ?_ fun _ => trivial
  exact .bind (relabels_soundMark _) fun _ hl => .bind (hg.expression _) fun _ hx =>
    .bind (relabels_optionalMark _) fun _ hc => .bind (relabels_soundMark _) fun _ hr =>
      .pure (by simp) (by simp [ht, hl, hx, hc, hr, Role.Fits])

theorem relabels_afterType {t : Node} (ht : Sound t) :
    Relabels φ Sound (afterType g t) (afterType g (relabel φ t)) := by
  rw [afterType, afterType, kind_relabel]
  refine .look (relabels_nextIs _) fun _ => .ite (.ite ?_ .failure) (relabels_conversion hg ht)
  exact .bind hg.literalValue fun _ hb => .pure (by simp)
    ((sound_branch _ _).mpr ⟨trivial, by simp, by simp [ht, hb, Role.Fits]⟩)

/-- A simple type, and what follows it in the place of an operand. -/
theorem relabels_typeThenRest : Relabels φ Sound (do afterType g (← simpleType g false))
    (do afterType g (← simpleType g false)) :=
  .bind (relabels_simpleType hg _) fun _ ht => relabels_afterType hg ht.1

theorem relabels_functionOperand : Relabels φ Sound (functionOperand g) (functionOperand g) := by
  refine .orElse (relabels_plainPhrase _ ?_ fun _ => trivial) (relabels_typeThenRest hg)
  exact .bind (relabels_soundMark _) fun _ hf => .bind (relabels_soundParameterList hg) fun _ hps =>
    .bind (relabels_result hg (relabels_simpleType hg) _) fun _ hr => .bind hg.block fun _ hb =>
      .pure (by simp) (by simp [hf, hps, hr, hb, Role.Fits])

theorem relabels_parenthesizedOperand :
    Relabels φ Sound (parenthesizedOperand g) (parenthesizedOperand g) := by
  refine .orElse (relabels_plainPhrase _ ?_ fun _ => trivial)
    (.bind (relabels_typeNode hg _) fun _ ht => relabels_conversion hg ht.1)
  exact .bind (relabels_soundMark _) fun _ hl => .bind (hg.expression _) fun _ hx =>
    .bind (relabels_soundMark _) fun _ hr => .pure (by simp) (by simp [hl, hx, hr, Role.Fits])

theorem relabels_bracketOperand : Relabels φ Sound (bracketOperand g) (bracketOperand g) := by
  refine .look (relabels_nextAre _) fun _ => .ite (relabels_plainPhrase _ ?_ fun _ => trivial)
    (relabels_typeThenRest hg)
  refine .bind (relabels_plainPhrase _ ?_ fun _ => trivial) fun _ ht =>
    .bind hg.literalValue fun _ hb => .pure (by simp) (by simp [ht, hb, Role.Fits])
  exact .bind (relabels_soundMark _) fun _ hl => .bind (relabels_soundMark _) fun _ hd =>
    .bind (relabels_soundMark _) fun _ hr => .bind (relabels_soundType hg _) fun _ ht =>
      .pure (by simp) (by simp [hl, hd, hr, ht, Role.Fits])

theorem relabels_wordOperand (t : Token) :
    Relabels φ Sound (wordOperand g t) (wordOperand g (relabel φ t)) :=
  .ite (relabels_functionOperand hg) <| .ite (relabels_typeThenRest hg) <| .ite .failure <|
    .ite (relabels_soundTake _) <| .ite (relabels_soundTake _) <| .ite (relabels_soundTake _) <|
      .ite (relabels_soundTake _) (relabels_soundTake _)

theorem relabels_operandNode : Relabels φ Sound (operandNode g) (operandNode g) := by
  refine .peek .failure fun t _ => ?_
  have hkind : (relabel φ t).kind = t.kind := rfl
  dsimp only
  rw [hkind]
  cases t.kind with
  | word => exact relabels_wordOperand hg t
  | int | float | imaginary | rune | rawString | string => exact relabels_soundTake _
  | symbol =>
    exact .ite (relabels_parenthesizedOperand hg) (.ite (relabels_bracketOperand hg) .failure)
  | nul => exact .failure

/-! ### What follows an operand -/

theorem relabels_argument : Relabels φ SoundParts (argument g) (argument g) := by
  refine .bind (hg.expression _) fun x hx => .look (relabels_nextIs _) fun _ =>
    .ite (.bind (relabels_soundMark _) fun dots hdots => .pure (by simp) ?_)
      (.pure (by simp) (by simp [hx, Role.Fits]))
  have hvariadic : Sound (Role.part, Node.branch .variadicArgument [(Role.part, x), dots]) :=
    sound_phrase trivial (by simp [hx, hdots, Role.Fits])
  simpa using hvariadic

theorem relabels_argumentList : Relabels φ Sound (argumentList g) (argumentList g) := by
  have harguments : Relabels φ Sound (do
      let xs ← separated "," (argument g)
      let c ← optionalMark ","
      return xs ++ c) (do
      let xs ← separated "," (argument g)
      let c ← optionalMark ","
      return xs ++ c) :=
    .bind (relabels_separated (relabels_argument hg) _) fun _ hxs =>
      .bind (relabels_optionalMark _) fun _ hc => .pure (by simp) (by simp [hxs.2, hc])
  refine relabels_plainPhrase _ ?_ fun _ => trivial
  exact .bind (relabels_soundMark _) fun _ hl => .bind (relabels_orNothing harguments)
    fun _ hitems => .bind (relabels_soundMark _) fun _ hr =>
      .pure (by simp) (by simp [hl, hitems, hr])

theorem relabels_allocationArguments :
    Relabels φ Sound (allocationArguments g) (allocationArguments g) := by
  have hmore := relabels_separatedTail (relabels_part (hg.expression inner)) false ","
  have harguments : Relabels φ Sound (do
      let t ← g.type false
      let xs ← separatedTail false "," (inRole .part (g.expression inner))
      let c ← optionalMark ","
      return (Role.part, t) :: xs ++ c) (do
      let t ← g.type false
      let xs ← separatedTail false "," (inRole .part (g.expression inner))
      let c ← optionalMark ","
      return (Role.part, t) :: xs ++ c) :=
    .bind (relabels_soundType hg _) fun _ ht => .bind hmore fun _ hxs =>
      .bind (relabels_optionalMark _) fun _ hc =>
        .pure (by simp) (by simp [ht, hxs, hc, Role.Fits])
  refine relabels_plainPhrase _ ?_ fun _ => trivial
  exact .bind (relabels_soundMark _) fun _ hl => .bind (relabels_orNothing harguments)
    fun _ hitems => .bind (relabels_soundMark _) fun _ hr =>
      .pure (by simp) (by simp [hl, hitems, hr])

omit hg in
theorem isAllocator_relabel (x : Node) : isAllocator (relabel φ x) = isAllocator x := by
  cases x with
  | leaf k leading text => cases k <;> rfl
  | branch k cs => rw [relabel_branch]; rfl

theorem relabels_callNode {x : Node} (hx : Sound x) :
    Relabels φ Sound (callNode g x) (callNode g (relabel φ x)) := by
  have hcall {p : Parser Node} (hp : Relabels φ Sound p p) : Relabels φ Sound
      (p >>= fun arguments =>
        pure (Node.branch .callExpression [(Role.function, x), (Role.arguments, arguments)]))
      (p >>= fun arguments =>
        pure (Node.branch .callExpression [(Role.function, relabel φ x), (Role.arguments, arguments)])) :=
    .bind hp fun _ ha => .pure (by simp)
      ((sound_branch _ _).mpr ⟨trivial, by simp, by simp [hx, ha, Role.Fits]⟩)
  rw [callNode, callNode, isAllocator_relabel]
  exact .ite (hcall (relabels_allocationArguments hg)) (hcall (relabels_argumentList hg))

theorem relabels_sliceBounds : Relabels φ Sound (sliceBounds g) (sliceBounds g) := by
  refine .bind (relabels_soundMark _) fun colon hcolon => .bind (relabels_orNothing
    (relabels_inRole .end (hg.expression _) fun _ hx => ⟨trivial, hx⟩).ofParts)
    fun limit hlimit => ?_
  rw [isEmpty_relabel]
  refine .look (relabels_nextIs _) fun _ =>
    .ite ?_ (.pure (by simp) (by simp [hcolon, hlimit]))
  exact .bind (relabels_soundMark _) fun _ hcolon' => .bind (hg.expression _) fun _ hx =>
    .pure (by simp) (by simp [hcolon, hlimit, hcolon', hx, Role.Fits])

theorem relabels_bracketNode {x : Node} (hx : Sound x) :
    Relabels φ Sound (bracketNode g x) (bracketNode g (relabel φ x)) := by
  refine .orElse ?index ?instantiation
  case index =>
    refine .bind (relabels_soundMark _) fun l hl => .bind (relabels_orNothing
      (relabels_inRole .start (hg.expression _) fun _ hx => ⟨trivial, hx⟩).ofParts)
      fun start hstart =>
        .look (relabels_nextIs _) fun _ => .ite ?_ (.bind (relabels_soundMark _) fun r hr => ?_)
    · exact .bind (relabels_sliceBounds hg) fun _ hbounds => .bind (relabels_soundMark _)
        fun _ hr => .pure (by simp) ((sound_branch _ _).mpr
          ⟨trivial, by simp, by simp [hx, hl, hstart, hbounds, hr, Role.Fits]⟩)
    · match start, hstart with
      | [], _ => exact .failure
      | [(s, i)], hstart =>
        refine .pure (by simp) ((sound_branch _ _).mpr ⟨trivial, ?_⟩)
        have hi : Sound i := ((sound_cons _ _).mp hstart).1.2
        simp [hx, hl, hi, hr, Role.Fits]
      | _ :: _ :: _, _ => exact .failure
  case instantiation =>
    rw [typeOfExpression?_relabel]
    cases ht : typeOfExpression? x with
    | none => exact .failure
    | some t =>
      have hsound := (isSoundType_of_typeOfExpression? ht hx).1
      exact .bind (relabels_typeArguments hg) fun _ ha => .pure (by simp)
        ((sound_branch _ _).mpr ⟨trivial, by simp, by simp [hsound, ha, Role.Fits]⟩)

theorem relabels_dotNode {x : Node} (hx : Sound x) :
    Relabels φ Sound (dotNode g x) (dotNode g (relabel φ x)) := by
  refine .bind (relabels_soundMark _) fun _ hdot => .look (relabels_nextIs _) fun _ => .ite ?_ ?_
  · exact .bind (relabels_soundMark _) fun _ hl => .bind (relabels_soundType hg _) fun _ ht =>
      .bind (relabels_soundMark _) fun _ hr => .pure (by simp)
        ((sound_branch _ _).mpr ⟨trivial, by simp, by simp [hx, hdot, hl, ht, hr, Role.Fits]⟩)
  · exact .bind (relabels_name _) fun _ hf => .pure (by simp)
      ((sound_branch _ _).mpr
        ⟨trivial, by simp, by simp [hx, hdot, hf.isToken, hf.sound, Role.Fits]⟩)

theorem relabels_extend (c : Context) (fuel : Nat) {x : Node} (hx : Sound x) :
    Relabels φ Sound (extend g c fuel x) (extend g c fuel (relabel φ x)) := by
  induction fuel generalizing x with
  | zero => exact .pure rfl hx
  | succ fuel ih =>
    have hstop : Relabels φ Sound (pure x : Parser Node) (pure (relabel φ x)) := .pure rfl hx
    have hthen {p p' : Parser Node} (hp : Relabels φ Sound p p') :
        Relabels φ Sound (do extend g c fuel (← p)) (do extend g c fuel (← p')) :=
      .bind hp fun _ hn => ih hn
    refine .peek hstop fun t _ => ?_
    refine .ite hstop (.ite ?dot (.ite (hthen (relabels_callNode hg hx))
      (.ite (hthen (relabels_bracketNode hg hx)) (.ite ?brace hstop))))
    case dot =>
      exact .look (relabels_nextAre _) fun _ => .ite hstop (hthen (relabels_dotNode hg hx))
    case brace =>
      refine .bind (relabels_literalTypeOf? c hx) fun t ht => ?_
      cases t with
      | none => exact hstop
      | some t =>
        refine .bind hg.literalValue fun b hb => ?_
        have hliteral : Sound (Node.branch .compositeLiteral [(Role.type, t), (Role.body, b)]) :=
          (sound_branch _ _).mpr ⟨trivial, by simp, by simp [(ht t rfl).1, hb, Role.Fits]⟩
        simpa using ih hliteral

theorem relabels_primaryNode (c : Context) :
    Relabels φ Sound (primaryNode g c) (primaryNode g c) := by
  refine .bind (relabels_operandNode hg) fun x hx => .get fun ts _ => ?_
  rw [length_relabel]
  exact relabels_extend hg c _ hx

/-! ### Operators -/

/-- No mark of a table is cut into nothing and another mark. -/
abbrev CutsInTwo (table : List (String × String × String)) : Prop :=
  ∀ d ∈ table, d.2.1.toList ≠ [] ∧ d.2.2.toList ≠ []

omit hg in
theorem cutsInTwo_doubledUnary : CutsInTwo doubledUnary := by decide

omit hg in
theorem cutsInTwo_splitOperators : CutsInTwo splitOperators := by decide

omit hg in
/-- The next token can be cut in two by a table. -/
theorem relabels_splitting {α : Type} [Labelled α] {table : List (String × String × String)}
    (htable : CutsInTwo table) {cut : Bool} {rest rest' : Unit → Parser α} {P : α → Prop}
    (hrest : ∀ u, Relabels φ P (rest u) (rest' u)) (t : Token) :
    Relabels φ P
      (if cut then
        match table.find? fun d => t.is d.1 with
        | some (_, a, b) => do rest (← splitToken a b)
        | _ => rest ()
      else rest ())
      (if cut then
        match table.find? fun d => (relabel φ t).is d.1 with
        | some (_, a, b) => do rest' (← splitToken a b)
        | _ => rest' ()
      else rest' ()) := by
  change Relabels φ P _ (if cut then
    match table.find? fun d => t.is d.1 with
    | some (_, a, b) => do rest' (← splitToken a b)
    | _ => rest' ()
    else rest' ())
  refine .ite ?_ (hrest ())
  split
  · rename_i s a b hd
    obtain ⟨ha, hb⟩ := htable _ (List.mem_of_find?_eq_some hd)
    exact .bind (relabels_splitToken ha hb) fun u _ => hrest u
  · exact hrest ()

theorem relabels_unaryNode (c : Context) :
    Relabels φ Sound (unaryNode g c) (unaryNode g c) := by
  refine .peek .failure fun t _ =>
    relabels_splitting cutsInTwo_doubledUnary (fun _ => ?_) t
  refine .peek .failure fun t _ =>
    .ite (.orElse ?_ (.ite ?_ .failure)) (relabels_primaryNode hg c)
  · exact .bind (relabels_take _) fun _ hop => .bind (hg.unary c) fun _ hx => .pure (by simp)
      ((sound_branch _ _).mpr ⟨trivial, by simp, by simp [hop.isToken, hop.sound, hx, Role.Fits]⟩)
  · exact relabels_typeThenRest hg

theorem relabels_binaryFrom (c : Context) (fuel level : Nat) {x : Node} (hx : Sound x) :
    Relabels φ Sound (binaryFrom g c fuel level x) (binaryFrom g c fuel level (relabel φ x)) := by
  induction fuel generalizing level x with
  | zero => exact .pure rfl hx
  | succ fuel ih =>
    have hstop : Relabels φ Sound (pure x : Parser Node) (pure (relabel φ x)) := .pure rfl hx
    refine .peek hstop fun t _ => .ite hstop
      (relabels_splitting cutsInTwo_splitOperators (fun _ => ?_) t)
    refine .peek hstop fun t _ => .ite hstop ?_
    have hoperator : (binaryOperators.find? fun o => (relabel φ t).is o.1) =
        binaryOperators.find? fun o => t.is o.1 := rfl
    rw [hoperator]
    cases binaryOperators.find? fun o => t.is o.1 with
    | none => exact hstop
    | some o =>
      refine .ite hstop (.bind (relabels_take _) fun op hop =>
        .bind (relabels_unaryNode hg c) fun y hy => .bind (ih _ hy) fun y hy => ?_)
      have hjoined : Sound
          (Node.branch .binaryExpression [(Role.left, x), (Role.operator, op), (Role.right, y)]) :=
        (sound_branch _ _).mpr ⟨trivial, by simp [hx, hop.isToken, hop.sound, hy, Role.Fits]⟩
      simpa using ih level hjoined

theorem relabels_binaryNode (c : Context) :
    Relabels φ Sound (binaryNode g c) (binaryNode g c) := by
  refine .bind (relabels_unaryNode hg c) fun x hx => .get fun ts _ => ?_
  rw [length_relabel]
  exact relabels_binaryFrom hg c _ _ hx

theorem relabels_expressionList (c : Context) :
    Relabels φ Sound (expressionList g c) (expressionList g c) :=
  relabels_plainPhrase _ (relabels_separatedOn (relabels_part (hg.expression c)) _ _)
    fun _ => trivial

end Expressions

end ProviderCatalog.Go
