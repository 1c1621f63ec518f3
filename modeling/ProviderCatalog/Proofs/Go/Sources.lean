import ProviderCatalog.Proofs.Go.Statements
import ProviderCatalog.Go.Source
import ProviderCatalog.Proofs.Go.Literals
import ProviderCatalog.Proofs.Text.Pieces

/-!
# Sources and their contents

Cutting a content into tokens and making a tree of them loses nothing but a byte order mark in front
and the blanks behind, and neither does making nodes of the comments in front of the tokens. So the
text of the syntax tree of a source occurs in its content. No statement is a declaration of a
function, so what the parser of files makes of the top level is one only where the keyword of
functions stands. A function therefore begins with its keyword, and its text occurs in the text of
the tree. Of the declarations with one name the first counts.

## Main definitions

* `Makes`: a parser makes things with a property.
* `Node.Announced`: a declaration of a function begins with its keyword.
* `Grammar.Plain`: a grammar whose blocks and conditional statements are no functions.

## Main results

* `makes_statementNode`: statements are no functions.
* `makes_fileNode`: the functions of a file begin with their keyword.
* `takeLeading_eq`, `spell_tokens?`, `text_cutComments`, `infix_of_parse?`: what cutting and parsing
  keep.
* `Source.ofFile_eq_ok`, `Source.function_of_ofFile`: the source of a file and its functions.
-/

namespace ProviderCatalog.Go

/-! ### What parsers make -/

variable {α β : Type}

/-- A parser makes things with a property. -/
def Makes (p : Parser α) (P : α → Prop) : Prop :=
  ∀ ts x ts', p.run ts = some (x, ts') → P x

namespace Makes

variable {p q : Parser α} {f : α → Parser β} {P P' : α → Prop} {Q : β → Prop}

theorem imp (hp : Makes p P) (h : ∀ a, P a → P' a) : Makes p P' :=
  fun ts x ts' hrun => h x (hp ts x ts' hrun)

theorem bind (hp : Makes p P) (hf : ∀ a, P a → Makes (f a) Q) : Makes (p >>= f) Q := by
  intro ts b ts' h
  obtain ⟨a, ts₁, ha, hb⟩ := run_bind_eq_some h
  exact hf a (hp ts a ts₁ ha) ts₁ b ts' hb

theorem after (p : Parser α) (hf : ∀ a, Makes (f a) Q) : Makes (p >>= f) Q :=
  bind (fun _ _ _ _ => trivial) fun a (_ : True) => hf a

theorem pure {a : α} (h : P a) : Makes (pure a) P := by
  intro ts x ts' hrun
  cases hrun
  exact h

theorem failure : Makes (failure : Parser α) P := fun _ _ _ h => nomatch h

theorem orElse (hp : Makes p P) (hq : Makes q P) : Makes (p <|> q) P := by
  intro ts x ts' h
  rcases run_orElse_eq_some h with h | h
  · exact hp ts x ts' h
  · exact hq ts x ts' h

theorem ite {c : Prop} [Decidable c] (hp : Makes p P) (hq : Makes q P) :
    Makes (if c then p else q) P := by
  split
  · exact hp
  · exact hq

theorem manyFrom (hp : Makes p P) (fuel : Nat) :
    Makes (manyFrom p fuel) fun xs => ∀ x ∈ xs, P x := by
  induction fuel with
  | zero => exact .pure (List.forall_mem_nil _)
  | succ fuel ih =>
    exact .orElse (.bind hp fun x hx => .bind ih fun xs hxs =>
      .pure (List.forall_mem_cons.mpr ⟨hx, hxs⟩)) (.pure (List.forall_mem_nil _))

theorem many (hp : Makes p P) : Makes (many p) fun xs => ∀ x ∈ xs, P x :=
  .after _ fun _ => hp.manyFrom _

end Makes

theorem makes_take (k : Kind) :
    Makes (take k) fun n => ∃ leading text, n = .leaf k leading text := by
  intro ts n ts' h
  cases ts with
  | nil => exact nomatch h
  | cons t ts =>
    cases h
    exact ⟨_, _, rfl⟩

theorem makes_mark (s : String) :
    Makes (mark s) fun k => ∃ leading, k = (.part, .leaf .mark leading s.toList) := by
  intro ts k ts' h
  obtain ⟨n, ts₁, hn, h⟩ := run_bind_eq_some h
  cases h
  cases ts with
  | nil => exact nomatch hn
  | cons t ts =>
    change (if t.is s then take .mark else failure : Parser Node).run (t :: ts) = _ at hn
    split at hn
    · rename_i htext
      cases hn
      exact ⟨t.leading, by rw [← beq_iff_eq.mp htext]⟩
    · exact nomatch hn

/-! ### Statements -/

namespace Node

/-- A node that is no declaration of a function. -/
abbrev IsOther (n : Node) : Prop := n.kind ≠ .functionDeclaration

/-- A declaration of a function begins with its keyword. -/
def Announced (n : Node) : Prop := n.kind = .functionDeclaration → "func".toList <+: n.chars

theorem IsOther.announced {n : Node} (h : n.IsOther) : n.Announced := fun hkind => absurd hkind h

end Node

/-- The blocks and the conditional statements of a grammar are no functions. -/
structure Grammar.Plain (g : Grammar) : Prop where
  block : Makes g.block Node.IsOther
  ifStatement : Makes g.ifStatement Node.IsOther

theorem makes_phrase {k : Kind} (p : Parser Parts) (h : k ≠ .functionDeclaration) :
    Makes (phrase k p) Node.IsOther :=
  .after p fun _ => .pure h

theorem Grammar.plain_empty : Grammar.empty.Plain := ⟨.failure, .failure⟩

theorem Grammar.plain_next (g : Grammar) : g.next.Plain :=
  ⟨makes_phrase _ nofun, makes_phrase _ nofun⟩

theorem Grammar.plain_deepen {g : Grammar} (h : g.Plain) (depth : Nat) :
    (g.deepen depth).Plain := by
  induction depth generalizing g with
  | zero => exact h
  | succ depth ih => exact ih g.plain_next

theorem plain_grammar (depth : Nat) : (grammar depth).Plain :=
  Grammar.plain_deepen Grammar.plain_empty depth

variable {g : Grammar}

theorem makes_declaration : Makes (declaration g) Node.IsOther :=
  .after _ fun _ => .ite (makes_phrase _ nofun) <| .after _ fun _ => .ite (makes_phrase _ nofun) <|
    .after _ fun _ => .ite (makes_phrase _ nofun) .failure

theorem makes_expressionStatement (left : Node) :
    Makes (match onlyExpression? left with
      | some x => return .branch .expressionStatement [(.part, x)]
      | none => failure : Parser Node) Node.IsOther := by
  split
  · exact .pure nofun
  · exact .failure

theorem makes_simpleStatement (c right : Context) :
    Makes (simpleStatement g c right) Node.IsOther := by
  refine .after _ fun left => ?_
  have halone := makes_expressionStatement left
  refine .after _ fun t => ?_
  cases t with
  | none => exact halone
  | some t =>
    refine .ite halone (.ite ?_ (.ite ?_ ?_))
    · exact .after _ fun _ => .after _ fun _ => .pure nofun
    · exact .after _ fun _ => .after _ fun _ => .pure nofun
    · split
      · exact .failure
      · exact .ite (.after _ fun _ => .pure nofun) <| .ite (.after _ fun _ => .pure nofun) <|
          .ite (.after _ fun _ => .after _ fun _ => .pure nofun) (.pure nofun)

theorem makes_switchNode : Makes (switchNode g) Node.IsOther := by
  have hafter (front : Parts) : Makes (afterSwitch g front) Node.IsOther :=
    .orElse (.after _ fun _ => .after _ fun _ => .pure nofun)
      (.after _ fun _ => .ite (.after _ fun _ => .after _ fun _ => .pure nofun)
        (.after _ fun _ => .after _ fun _ => .pure nofun))
  exact .after _ fun _ => .orElse (.after _ fun _ => .after _ fun _ => hafter _) (hafter _)

theorem makes_keywordStatement? (h : g.Plain) (t : Token) :
    ∀ p ∈ keywordStatement? g t, Makes p Node.IsOther := by
  have hphrase {k : Kind} (p : Parser Parts) (hk : k ≠ .functionDeclaration) :
      ∀ q ∈ some (phrase k p), Makes q Node.IsOther := forall_mem_some (makes_phrase p hk)
  exact forall_mem_ite (forall_mem_some makes_declaration) <| forall_mem_ite (hphrase _ nofun) <|
    forall_mem_ite (hphrase _ nofun) <| forall_mem_ite (hphrase _ nofun) <|
    forall_mem_ite (forall_mem_some h.ifStatement) <| forall_mem_ite (hphrase _ nofun) <|
    forall_mem_ite (forall_mem_some makes_switchNode) <| forall_mem_ite (hphrase _ nofun) <|
    forall_mem_ite (hphrase _ nofun) <| forall_mem_ite (hphrase _ nofun) <|
    forall_mem_ite (hphrase _ nofun) <| forall_mem_ite (hphrase _ nofun) nofun

/-- Statements are no functions. -/
theorem makes_statementNode (h : g.Plain) : Makes (statementNode g) Node.IsOther := by
  refine .after _ fun t => ?_
  cases t with
  | none => exact .failure
  | some t =>
    dsimp only
    split
    · rename_i p hp
      exact makes_keywordStatement? h t p hp
    · refine .ite h.block (.ite (makes_phrase _ nofun) (.after _ fun _ => .ite ?_ ?_))
      · exact makes_phrase _ nofun
      · exact makes_simpleStatement _ _

/-! ### Files -/

theorem makes_functionDeclaration : Makes (functionDeclaration g) Node.Announced := by
  refine .bind (makes_mark _) fun k hk => .after _ fun _ => .ite ?method ?function
  case method => exact .imp (makes_phrase _ nofun) fun _ h => h.announced
  case function =>
    -- all the parts stand behind the keyword
    refine .bind (P := fun cs => ∃ rest, cs = k :: rest) ?_ fun cs hcs => .pure fun _ => ?_
    · refine .after _ fun _ => .after _ fun _ => .ite (.after _ ?_) (.after _ ?_) <;>
        exact fun _ => .after _ fun _ => .after _ fun _ => .after _ fun _ => .pure ⟨_, rfl⟩
    · obtain ⟨rest, rfl⟩ := hcs
      obtain ⟨leading, rfl⟩ := hk
      exact List.prefix_append _ _

/-- What stands at the top level of a file is a function that begins with its keyword, or none. -/
theorem makes_topLevel (h : g.Plain) : Makes (topLevel g) Node.Announced := by
  have hstatement := (makes_statementNode h).imp fun _ h => h.announced
  refine .after _ fun _ => .ite (.imp (makes_phrase _ nofun) fun _ h => h.announced) <|
    .after _ fun _ => .ite (.imp (makes_phrase _ nofun) fun _ h => h.announced) <|
    .after _ fun _ => .ite (.orElse makes_functionDeclaration hstatement) hstatement

theorem makes_terminator : Makes terminator fun cs => ∀ c ∈ cs, c.2.Announced := by
  refine .after _ fun t => ?_
  cases t with
  | none => exact .failure
  | some t =>
    refine .ite (.after _ fun _ => .pure (List.forall_mem_nil _)) (.ite ?_ .failure)
    refine .bind (makes_take _) fun n hn => .pure (List.forall_mem_singleton.mpr ?_)
    obtain ⟨leading, text, rfl⟩ := hn
    exact nofun

/-- The functions of a file begin with their keyword. -/
theorem makes_fileNode (h : g.Plain) :
    Makes (fileNode g) fun root => ∀ n ∈ root.namedChildren, n.Announced := by
  have hitem : Makes (inRole .part (topLevel g)) fun cs => ∀ c ∈ cs, c.2.Announced :=
    .bind (makes_topLevel h) fun n hn => .pure (List.forall_mem_singleton.mpr hn)
  have hitems : Makes (many do
      let x ← inRole .part (topLevel g)
      return x ++ (← terminator)) fun items => ∀ cs ∈ items, ∀ c ∈ cs, c.2.Announced :=
    .many <| .bind hitem fun x hx => .bind makes_terminator fun e he =>
      .pure (List.forall_mem_append.mpr ⟨hx, he⟩)
  refine .bind (P := fun cs => ∀ c ∈ cs, c.2.Announced) ?_ fun cs hcs => .pure ?_
  · refine .bind hitems fun items hall => .bind (.orElse hitem (.pure (List.forall_mem_nil _)))
      fun last hlast => .pure (List.forall_mem_append.mpr ⟨fun c hc => ?_, hlast⟩)
    obtain ⟨item, hitem, hc⟩ := List.mem_flatten.mp hc
    exact hall item hitem c hc
  · intro n hn
    obtain ⟨c, hc, rfl⟩ := List.mem_map.mp (List.mem_filter.mp hn).1
    exact hcs c hc

end ProviderCatalog.Go

namespace ProviderCatalog.Go

/-! ### Tokens and trees -/

section Content

variable {content cs : List Char} {ts : List Token} {root : Node}

@[simp] theorem Leading.push_text (c : Char) (l : Leading) : (l.push c).text = c :: l.text := rfl

@[simp] theorem Leading.push_rest (c : Char) (l : Leading) : (l.push c).rest = l.rest := rfl

/-- Blanks and comments are split off without loss. -/
theorem takeLeading_eq (s : CommentState) (cs : List Char) :
    (takeLeading s cs).text ++ (takeLeading s cs).rest = cs := by
  fun_induction takeLeading s cs with
  | case4 _ _ ih | case7 _ _ ih => exact congrArg ('\n' :: ·) ih
  | _ => simp_all

theorem spell_scan? {fuel : Nat} (h : scan? fuel cs = some ts) : spell ts <+: cs := by
  induction fuel generalizing cs ts with
  | zero =>
    rw [scan?] at h
    split at h
    · cases h
      exact List.nil_prefix
    · exact nomatch h
  | succ fuel ih =>
    have hleading := takeLeading_eq .outside cs
    rw [scan?] at h
    dsimp only at h
    split at h
    · cases h
      exact List.nil_prefix
    · obtain ⟨⟨kind, n⟩, -, h⟩ := Option.bind_eq_some_iff.mp h
      obtain ⟨more, hmore, h⟩ := Option.bind_eq_some_iff.mp h
      cases h
      obtain ⟨after, hafter⟩ := ih hmore
      refine ⟨after, ?_⟩
      rw [spell_cons, spell_token, List.append_assoc, hafter, List.append_assoc,
        List.take_append_drop, hleading]

/-- The tokens of a content spell it, up to what stands before and behind them. -/
theorem spell_tokens? (h : tokens? content = some ts) : spell ts <+: withoutMark content :=
  spell_scan? h

theorem withoutMark_suffix (cs : List Char) : withoutMark cs <:+ cs := by
  unfold withoutMark
  split
  · exact List.suffix_cons _ _
  · exact List.suffix_rfl

/-! ### Comments in trees -/

/-- The part of a source that comments and blanks span. -/
def Gap.text (g : Gap) : List Char := (g.comments.flatMap fun c => c.1 ++ c.2) ++ g.blanks

@[simp] theorem Gap.text_push (blanks comment : List Char) (g : Gap) :
    (g.push blanks comment).text = blanks ++ (comment ++ g.text) := by
  simp [Gap.push, Gap.text]

/-- Blanks and comments are cut apart without loss. -/
theorem text_cutComments (blanks comment : List Char) (s : CommentState) (cs : List Char)
    (h : s = .outside → comment = []) :
    (cutComments blanks comment s cs).text = blanks.reverse ++ (comment.reverse ++ cs) := by
  fun_induction cutComments blanks comment s cs with
  | case4 => simp [Gap.text, h rfl]
  | case9 => simp [Gap.text]
  | _ => simp_all

theorem text_gapOf (leading : List Char) : (gapOf leading).text = leading :=
  text_cutComments [] [] .outside leading fun _ => rfl

namespace Node

variable {n : Node} {c : Role × Node} {behind : List Char}

theorem fullTextOf_append (cs cs' : Parts) :
    fullTextOf (cs ++ cs') = fullTextOf cs ++ fullTextOf cs' := by
  induction cs with
  | nil => rfl
  | cons c cs ih => rw [List.cons_append, fullTextOf, fullTextOf, ih, List.append_assoc]

theorem fullTextOf_comments (comments : List (List Char × List Char)) :
    fullTextOf (comments.map commentPart) = comments.flatMap fun c => c.1 ++ c.2 := by
  induction comments with
  | nil => rfl
  | cons c comments ih =>
    rw [List.map_cons, commentPart, fullTextOf, ih, List.flatMap_cons, fullText]

theorem charsOf_suffix (cs : Parts) : charsOf cs <:+ fullTextOf cs := by
  cases cs with
  | nil => exact List.suffix_rfl
  | cons c cs =>
    rw [charsOf, fullTextOf, fullText_eq, List.append_assoc]
    exact List.suffix_append _ _

@[simp] theorem kind_withComments (front : List Char) (n : Node) :
    (n.withComments front).kind = n.kind := by
  cases n <;> rw [withComments] <;> rfl

/-- The blanks in front of a tree are those that it is given, if it can have any. -/
theorem lead_withComments (front : List Char) : (n : Node) → (n.lead = [] → front = []) →
    (n.withComments front).lead = front
  | leaf _ _ _, _ => by rw [withComments, lead]
  | branch _ [], h => (h rfl).symm
  | branch _ ((_, n) :: _), h => lead_withComments front n h

theorem blanks_gapOf_nil {leading : List Char} (h : leading = []) :
    (gapOf leading).blanks = [] := by
  rw [h]
  rfl

mutual

/-- A tree spans the same part of a source with its comments as nodes. -/
theorem chars_withComments (front : List Char) : (n : Node) →
    (n.withComments front).chars = n.chars
  | leaf _ _ _ => by rw [withComments, chars, chars]
  | branch _ [] => rfl
  | branch k ((r, n) :: cs) => by
    change charsOf ((r, n.withComments front) :: partsWithComments none cs) = charsOf ((r, n) :: cs)
    rw [charsOf, charsOf, chars_withComments front n, fullTextOf_partsWithComments cs]

theorem fullTextOf_partsWithComments : (cs : Parts) →
    fullTextOf (partsWithComments none cs) = fullTextOf cs
  | [] => rfl
  | (r, n) :: cs => by
    change fullTextOf ((gapOf n.lead).comments.map commentPart ++
      (r, n.withComments (gapOf n.lead).blanks) :: partsWithComments none cs) = _
    have hgap := text_gapOf n.lead
    rw [Gap.text] at hgap
    rw [fullTextOf_append, fullTextOf_comments, fullTextOf, fullTextOf, fullText_eq, fullText_eq n,
      lead_withComments _ n blanks_gapOf_nil, chars_withComments, fullTextOf_partsWithComments cs,
      ← List.append_assoc, ← List.append_assoc, hgap]

end

/-- The tree of a file spans a part of what its tokens and the text behind them span. -/
theorem chars_ofFile (n : Node) (behind : List Char) :
    (n.ofFile behind).chars <:+: n.fullText ++ behind := by
  have hbehind : (gapOf behind).comments.flatMap (fun c => c.1 ++ c.2) <+: behind :=
    ⟨(gapOf behind).blanks, text_gapOf behind⟩
  have hparts : fullTextOf n.parts <:+ n.fullText := by
    cases n with
    | leaf => exact List.nil_suffix
    | branch => exact List.suffix_rfl
  obtain ⟨front, hfront⟩ := hparts
  obtain ⟨rest, hrest⟩ := hbehind
  refine (charsOf_suffix _).isInfix.trans ⟨front, rest, ?_⟩
  rw [fullTextOf_append, fullTextOf_partsWithComments, fullTextOf_comments, ← List.append_assoc,
    hfront, List.append_assoc, hrest]

/-- The parts of a tree are comments or parts that it had without them. -/
theorem mem_partsWithComments {front : Option (List Char)} {cs : Parts}
    (h : c ∈ partsWithComments front cs) :
    c.2.isComment = true ∨ ∃ m, (c.1, m) ∈ cs ∧ ∃ blanks, c.2 = m.withComments blanks := by
  induction cs generalizing front with
  | nil => exact absurd h List.not_mem_nil
  | cons d cs ih =>
    obtain ⟨r, m⟩ := d
    rcases List.mem_append.mp h with h | h
    · obtain ⟨comment, -, rfl⟩ := List.mem_map.mp h
      exact .inl rfl
    · rcases List.mem_cons.mp h with rfl | h
      · exact .inr ⟨m, List.mem_cons_self, _, rfl⟩
      · refine (ih h).imp_right fun ⟨m', hm, hblanks⟩ => ⟨m', List.mem_cons_of_mem _ hm, hblanks⟩

theorem mem_namedChildren_ofFile {x : Node} (h : x ∈ (n.ofFile behind).namedChildren) :
    x.isComment = true ∨ ∃ m ∈ n.namedChildren, ∃ blanks, x = m.withComments blanks := by
  obtain ⟨hchild, hnamed⟩ := List.mem_filter.mp h
  obtain ⟨⟨r, x⟩, hpart, rfl⟩ := List.mem_map.mp hchild
  rcases List.mem_append.mp hpart with hpart | hpart
  · refine (mem_partsWithComments hpart).imp_right fun ⟨m, hm, blanks, hx⟩ => ?_
    refine ⟨m, List.mem_filter.mpr ⟨List.mem_map.mpr ⟨_, hm, rfl⟩, ?_⟩, blanks, hx⟩
    rw [isNamed, ← kind_withComments blanks m, ← hx]
    exact hnamed
  · obtain ⟨comment, -, hcomment⟩ := List.mem_map.mp hpart
    cases hcomment
    exact .inl rfl

end Node

/-! ### Trees of contents -/

/-- The phrases of a content are those that the parser of files makes of all tokens of the
content. -/
theorem exists_tokens_of_phraseTree? (h : phraseTree? content = some root) :
    ∃ ts depth, tokens? content = some ts ∧
      (fileNode (grammar depth)).run ts = some (root, []) := by
  obtain ⟨ts, hts, h⟩ := Option.bind_eq_some_iff.mp h
  split at h
  · rename_i hrun
    cases h
    exact ⟨ts, _, hts, hrun⟩
  · exact nomatch h

/-- The phrases of a content spell it, up to what stands before and behind them. -/
theorem fullText_prefix_of_phraseTree? (h : phraseTree? content = some root) :
    root.fullText <+: withoutMark content := by
  obtain ⟨ts, depth, hts, hrun⟩ := exists_tokens_of_phraseTree? h
  have hspell : spell ts = spell root := by
    simpa using spells_fileNode (faithful_grammar depth) ts root [] hrun
  change spell ts = root.fullText at hspell
  exact hspell ▸ spell_tokens? hts

/-- The text of the tree of a content occurs in the content. -/
theorem infix_of_parse? (h : parse? content = some root) : root.chars <:+: content := by
  obtain ⟨phrases, hphrases, rfl⟩ := Option.map_eq_some_iff.mp h
  have htext := phrases.chars_ofFile ((withoutMark content).drop phrases.fullText.length)
  rw [List.prefix_iff_eq_append.mp (fullText_prefix_of_phraseTree? hphrases)] at htext
  exact htext.trans (withoutMark_suffix content).isInfix

theorem announced_of_parse? (h : parse? content = some root) :
    ∀ n ∈ root.namedChildren, n.Announced := by
  obtain ⟨phrases, hphrases, rfl⟩ := Option.map_eq_some_iff.mp h
  obtain ⟨ts, depth, -, hrun⟩ := exists_tokens_of_phraseTree? hphrases
  intro n hn hkind
  rcases Node.mem_namedChildren_ofFile hn with hcomment | ⟨m, hm, blanks, rfl⟩
  · rw [Node.isComment, hkind] at hcomment
    exact absurd hcomment (by decide)
  · rw [Node.chars_withComments]
    rw [Node.kind_withComments] at hkind
    exact makes_fileNode (plain_grammar depth) ts phrases [] hrun m hm hkind

end Content

/-! ### Functions of a source -/

theorem Node.chars_infix_of_mem_namedChildren {n c : Node} (h : c ∈ n.namedChildren) :
    c.chars <:+: n.chars := by
  obtain ⟨⟨r, c⟩, hpart, rfl⟩ := List.mem_map.mp (List.mem_filter.mp h).1
  exact chars_infix_of_mem_parts hpart

/-- The functions of an index are declarations that were entered into it. -/
theorem mem_foldl_addFunction {functions : List (Text × Node)} {ds : List Node} {e : Text × Node}
    (h : e ∈ ds.foldl addFunction functions) : e ∈ functions ∨ e.2 ∈ ds := by
  induction ds generalizing functions with
  | nil => exact .inl h
  | cons d ds ih =>
    rcases ih h with h | h
    · rw [addFunction] at h
      split at h
      · exact .inl h
      · rcases List.mem_append.mp h with h | h
        · exact .inl h
        · exact .inr (List.mem_singleton.mp h ▸ List.mem_cons_self)
    · exact .inr (List.mem_cons_of_mem d h)

namespace Source

variable {f : RepositoryFile} {s : Source} {d : Node}

/-- A source has the path of its file, a tree of the content and the index of the tree. -/
theorem ofFile_eq_ok (h : ofFile f = .ok s) :
    ∃ cs, f.content.toChars? = some cs ∧ parse? cs = some s.root ∧ s = ofTree f.path s.root := by
  rw [ofFile, ofContent] at h
  split at h
  · exact nomatch h
  · rename_i cs hcs
    split at h
    · exact nomatch h
    · rename_i root hroot
      cases h
      exact ⟨cs, hcs, hroot, rfl⟩

theorem path_of_ofFile (h : ofFile f = .ok s) : s.path = f.path := by
  obtain ⟨-, -, -, hs⟩ := ofFile_eq_ok h
  rw [hs]
  rfl

/-- The functions of a source of a file occur in the file and begin with their keyword. -/
theorem function_of_ofFile (h : ofFile f = .ok s) (hd : d ∈ s.functions.map (·.2)) :
    d.text <:+: f.content ∧ "func".toList <+: d.chars := by
  obtain ⟨cs, hcs, hroot, hs⟩ := ofFile_eq_ok h
  obtain ⟨e, he, rfl⟩ := List.mem_map.mp hd
  rw [hs] at he
  rcases mem_foldl_addFunction he with he | he
  · exact absurd he List.not_mem_nil
  · obtain ⟨hchild, hkind⟩ := List.mem_filter.mp he
    have hchars := (Node.chars_infix_of_mem_namedChildren hchild).trans (infix_of_parse? hroot)
    rw [Text.eq_ofChars_of_toChars? hcs]
    exact ⟨hchars.map _, announced_of_parse? hroot _ hchild (beq_iff_eq.mp hkind)⟩

end Source

end ProviderCatalog.Go
