import ProviderCatalog.Go.Source
import ProviderCatalog.Proofs.Go.Literals
import Mathlib.Data.List.Flatten
import Mathlib.Data.List.Induction
import Mathlib.Data.Nat.Find

/-!
# The literal that a function returns

A function returns a literal if one of the returns among the statements of its body has a literal
as its first value, or a variable that a statement before it binds to one. The first such return
counts, and the last binding of the variable before it. A declaration of variables is searched to
its full depth for bindings, though: a variable of a function literal among its values can take the
place of a variable of the body.

## Main definitions

* `Site`, `Site.Binds`: the places where statements give values to names.
* `Node.ownSites`, `Node.reachedSites`: the places of a statement itself, and all that are searched.
* `Node.Shallow`: the places that bind a variable are those of the statement itself.
* `LastBinding`: the literal that a variable was bound to last.
* `ReturnsAt`, `Returned`: the literals that statements return.

## Main results

* `Node.walk_eq`: the nodes of a tree are its root and the nodes of its children.
* `returnedFrom?_eq_some_iff`: the literal that statements return after some bindings.
* `Node.returnedLiteral_iff`: the literal that a function returns.
* `Node.returnedLiteral_leaks`: a variable of a function literal can take its place.
-/

namespace ProviderCatalog.Go

/-! ### The nodes of a tree -/

namespace Node

theorem walkStack_append (ns ms : List Node) :
    walkStack (ns ++ ms) = walkStack ns ++ walkStack ms := by
  induction ns using walkStack.induct with
  | case1 => rw [walkStack, List.nil_append, List.nil_append]
  | case2 n rest ih =>
    rw [List.cons_append, walkStack, walkStack, ← List.append_assoc, ih, List.cons_append]

theorem walkStack_eq (ns : List Node) : walkStack ns = ns.flatMap walk := by
  induction ns with
  | nil => rw [walkStack, List.flatMap_nil]
  | cons n ns ih =>
    rw [List.flatMap_cons, ← ih]
    exact walkStack_append [n] ns

/-- The nodes of a tree are its root and the nodes of its children. -/
theorem walk_eq (n : Node) : n.walk = n :: n.namedChildren.flatMap walk := by
  rw [walk, walkStack, List.append_nil, walkStack_eq]

theorem singleton_sublist_walk (n : Node) : [n].Sublist n.walk := by
  rw [walk_eq]
  exact (List.nil_sublist _).cons_cons n

theorem namedChildren_sublist_walk (n : Node) : n.namedChildren.Sublist n.walk := by
  have hchildren := List.Sublist.flatMap_right n.namedChildren fun c _ => c.singleton_sublist_walk
  rw [List.flatMap_singleton'] at hchildren
  rw [walk_eq]
  exact hchildren.cons n

end Node

/-! ### Places where names are given values -/

/-- A place where names are given values. -/
structure Site where
  targets : List Node
  values : List Node

/-- A place with one name and one value, which is a literal, binds the name to it. -/
def Site.Binds (site : Site) (x : Text) (l : Node.Literal) : Prop :=
  ∃ target, site.targets = [target] ∧ target.text = x ∧ site.values = [l.expression] ∧
    l.expression.IsLiteral l.braces

/-- Whether a place binds some name. -/
def Site.isBinding (site : Site) : Bool :=
  match site.targets, site.values with
  | [_], [v] => v.literalBody?.isSome
  | _, _ => false

theorem Site.Binds.isBinding {site : Site} {x : Text} {l : Node.Literal} (h : site.Binds x l) :
    site.isBinding = true := by
  obtain ⟨target, htarget, -, hvalue, hliteral⟩ := h
  rw [Site.isBinding, htarget, hvalue]
  exact Option.isSome_iff_exists.mpr ⟨_, Node.literalBody?_eq_some_iff.mpr hliteral⟩

namespace Node

/-- The place where an assignment gives values, if it gives them to variables. -/
def assignmentSites (s : Node) : List Site :=
  if (s.expressionsOf .left).all (·.kind == .identifier) then
    [⟨s.expressionsOf .left, s.expressionsOf .right⟩]
  else []

/-- The place where a specification gives values to its names. -/
def specificationSite (spec : Node) : Site := ⟨spec.children .name, spec.expressionsOf .value⟩

/-- Whether an assignment replaces the value of its target, instead of combining it with another. -/
def isPlainAssignment (s : Node) : Bool := (s.child? .operator).any (·.hasText "=")

/-- The specifications of a declaration of variables, which can stand in parentheses. -/
def ownSpecifications (s : Node) : List Node :=
  (s.namedChildren.flatMap fun c => if c.kind == .varSpecList then c.namedChildren else [c]).filter
    (·.kind == .varSpec)

/-- All specifications in a declaration of variables, also those in function literals. -/
def reachedSpecifications (s : Node) : List Node := s.walk.filter (·.kind == .varSpec)

/-- The places where a statement itself gives values to variables. -/
def ownSites (s : Node) : List Site :=
  if s.kind == .shortVarDeclaration then s.assignmentSites
  else if s.kind == .assignmentStatement then
    if s.isPlainAssignment then s.assignmentSites else []
  else if s.kind == .varDeclaration then s.ownSpecifications.map specificationSite
  else []

/-- The places of a statement that are searched for bindings. -/
def reachedSites (s : Node) : List Site :=
  if s.kind == .shortVarDeclaration || s.kind == .assignmentStatement then s.assignmentSites
  else if s.kind == .varDeclaration then s.reachedSpecifications.map specificationSite
  else []

theorem ownSpecifications_sublist (s : Node) :
    s.ownSpecifications.Sublist s.reachedSpecifications := by
  have hchildren : (s.namedChildren.flatMap fun c =>
      if c.kind == .varSpecList then c.namedChildren else [c]).Sublist
        (s.namedChildren.flatMap walk) := by
    refine List.Sublist.flatMap_right _ fun c _ => ?_
    split
    · exact c.namedChildren_sublist_walk
    · exact c.singleton_sublist_walk
  rw [ownSpecifications, reachedSpecifications, walk_eq s]
  exact (hchildren.cons s).filter _

/-- The places of a statement itself are searched, in their order. -/
theorem ownSites_sublist (s : Node) : s.ownSites.Sublist s.reachedSites := by
  rw [ownSites, reachedSites]
  cases s.kind with
  | assignmentStatement =>
    cases s.isPlainAssignment with
    | true => exact List.Sublist.refl _
    | false => exact List.nil_sublist _
  | varDeclaration => exact (ownSpecifications_sublist s).map _
  | _ => exact List.Sublist.refl _

/-- A statement of which all places are its own that are searched and bind a variable. -/
def Shallow (s : Node) : Prop :=
  s.reachedSites.filter (·.isBinding) = s.ownSites.filter (·.isBinding)

/-- The places can be counted to see that all of them are a statement's own. -/
theorem shallow_iff {s : Node} :
    s.Shallow ↔ s.reachedSites.countP (·.isBinding) ≤ s.ownSites.countP (·.isBinding) := by
  rw [List.countP_eq_length_filter, List.countP_eq_length_filter]
  constructor
  · exact fun h => Nat.le_of_eq (congrArg List.length h)
  · exact fun h => (((ownSites_sublist s).filter _).eq_of_length_le h).symm

instance (s : Node) : Decidable s.Shallow := decidable_of_iff _ shallow_iff.symm

end Node

/-! ### Bindings -/

variable {sites sites' : List Site} {site : Site} {bindings : Node.Bindings} {x : Text}
  {l : Node.Literal}

/-- A variable is bound to a literal at one of the places, and at no later one to any. -/
def LastBinding (sites : List Site) (x : Text) (l : Node.Literal) : Prop :=
  ∃ before site after, sites = before ++ site :: after ∧ site.Binds x l ∧
    ∀ s ∈ after, ∀ l', ¬s.Binds x l'

theorem not_lastBinding_nil : ¬LastBinding [] x l := by
  rintro ⟨before, site, after, h, -⟩
  simp at h

theorem lastBinding_concat_iff :
    LastBinding (sites ++ [site]) x l ↔
      site.Binds x l ∨ (∀ l', ¬site.Binds x l') ∧ LastBinding sites x l := by
  constructor
  · rintro ⟨before, s, after, h, hs, hafter⟩
    -- the place that binds the name is the last one, or the last one stands behind it
    rcases List.eq_nil_or_concat after with rfl | ⟨after', last, rfl⟩
    · obtain ⟨-, hlast⟩ := List.append_inj' h rfl
      obtain rfl := List.singleton_inj.mp hlast
      exact .inl hs
    · rw [List.concat_eq_append, ← List.cons_append, ← List.append_assoc] at h
      obtain ⟨hsites, hlast⟩ := List.append_inj' h rfl
      obtain rfl := List.singleton_inj.mp hlast
      exact .inr ⟨hafter _ (by simp), before, s, after', hsites, hs,
        fun s hs => hafter s (by simp [hs])⟩
  · rintro (h | ⟨hnone, before, s, after, rfl, hs, hafter⟩)
    · exact ⟨sites, site, [], rfl, h, List.forall_mem_nil _⟩
    · refine ⟨before, s, after ++ [site], by simp, hs, fun s hs => ?_⟩
      rcases List.mem_append.mp hs with hs | hs
      · exact hafter s hs
      · exact List.mem_singleton.mp hs ▸ hnone

/-- Places that bind no variable do not count. -/
theorem lastBinding_filter_iff :
    LastBinding (sites.filter (·.isBinding)) x l ↔ LastBinding sites x l := by
  induction sites using List.reverseRecOn with
  | nil => rfl
  | append_singleton sites site ih =>
    rw [List.filter_append, List.filter_singleton, lastBinding_concat_iff]
    cases hsite : site.isBinding with
    | true => rw [cond_true, lastBinding_concat_iff, ih]
    | false =>
      have hnone (l' : Node.Literal) : ¬site.Binds x l' :=
        fun h => nomatch hsite.symm.trans h.isBinding
      simp [hnone, ih]

/-- The bindings after a place where names are given values. -/
def bindSite (bindings : Node.Bindings) (site : Site) : Node.Bindings :=
  match site.targets, site.values with
  | [x], [v] => Node.bindLiteral bindings x v
  | _, _ => bindings

theorem Site.binds_iff {target value : Node} (htarget : site.targets = [target])
    (hvalue : site.values = [value]) :
    site.Binds x l ↔
      target.text = x ∧ value.literalBody? = some l.braces ∧ value = l.expression := by
  simp only [Binds, htarget, hvalue, List.singleton_inj, Node.literalBody?_eq_some_iff]
  constructor
  · rintro ⟨target, rfl, htext, rfl, hliteral⟩
    exact ⟨htext, hliteral, rfl⟩
  · rintro ⟨htext, hliteral, rfl⟩
    exact ⟨target, rfl, htext, rfl, hliteral⟩

/-- What a variable holds after a place is what it is bound to there, or else what it held. -/
theorem lookup_bindSite_eq_some_iff :
    (bindSite bindings site).lookup x = some l ↔
      site.Binds x l ∨ (∀ l', ¬site.Binds x l') ∧ bindings.lookup x = some l := by
  rw [bindSite]
  split
  · rename_i target value htarget hvalue
    simp only [Site.binds_iff htarget hvalue, Node.bindLiteral]
    cases hbody : value.literalBody? with
    | none => simp
    | some b =>
      by_cases hx : x = target.text
      · subst hx
        obtain ⟨expression, braces⟩ := l
        rw [List.lookup_cons_self]
        constructor
        · intro h
          cases h
          exact .inl ⟨rfl, rfl, rfl⟩
        · rintro (⟨-, h, rfl⟩ | ⟨hnone, -⟩)
          · rw [Option.some.inj h]
          · exact absurd ⟨rfl, rfl, rfl⟩ (hnone ⟨value, b⟩)
      · have hne : ¬target.text = x := fun h => hx h.symm
        simp [List.lookup_cons, beq_eq_false_iff_ne.mpr hx, hne]
  · rename_i hother
    have hnone (l' : Node.Literal) : ¬site.Binds x l' := by
      rintro ⟨target, htarget, -, hvalue, -⟩
      exact hother target l'.expression htarget hvalue
    simp [hnone]

/-- Bindings hold for each variable what it was bound to last. -/
def Holds (bindings : Node.Bindings) (sites : List Site) : Prop :=
  ∀ x l, bindings.lookup x = some l ↔ LastBinding sites x l

theorem holds_nil : Holds [] [] := fun _ _ => ⟨nofun, fun h => absurd h not_lastBinding_nil⟩

theorem Holds.bindSite (h : Holds bindings sites) (site : Site) :
    Holds (bindSite bindings site) (sites ++ [site]) := by
  intro x l
  rw [lookup_bindSite_eq_some_iff, lastBinding_concat_iff, h x l]

theorem Holds.foldl_bindSite (h : Holds bindings sites) (more : List Site) :
    Holds (more.foldl Go.bindSite bindings) (sites ++ more) := by
  induction more generalizing bindings sites with
  | nil => rwa [List.append_nil]
  | cons site more ih =>
    rw [List.foldl_cons, List.append_cons]
    exact ih (h.bindSite site)

namespace Node

/-- A statement binds variables at the places that are searched. -/
theorem bindStatement_eq (bindings : Bindings) (s : Node) :
    bindStatement bindings s = s.reachedSites.foldl bindSite bindings := by
  rw [bindStatement, reachedSites]
  split
  · rw [assignmentSites]
    split
    · rename_i x v hleft hright
      rw [hleft, hright]
      cases hkind : x.kind == .identifier <;> simp [hkind, bindSite]
    · rename_i hother
      split
      · rw [List.foldl_cons, List.foldl_nil, bindSite]
        split
        · rename_i x v hleft hright
          exact (hother x v hleft hright).elim
        · rfl
      · rfl
  · split
    · rw [reachedSpecifications, List.foldl_map, List.foldl_filter]
      rfl
    · rfl

end Node

/-! ### Returns -/

/-- A return yields the literal that its first value is, or the one that a variable was bound to
last which its first value names. -/
inductive Yields (sites : List Site) (s : Node) : Node.Literal → Prop where
  | literal {v b : Node} (hv : s.returnValues.head? = some v) (h : v.IsLiteral b) :
      Yields sites s ⟨v, b⟩
  | bound {v x : Node} {l : Node.Literal} (hv : s.returnValues.head? = some v) (hx : v.Inside x)
      (hkind : x.kind = .identifier) (h : LastBinding sites x.text l) : Yields sites s l

theorem bind_resolve?_eq_some_iff (h : Holds bindings sites) {s : Node} :
    s.returnValues.head?.bind (Node.resolve? bindings) = some l ↔ Yields sites s l := by
  rw [Option.bind_eq_some_iff]
  constructor
  · rintro ⟨v, hv, hl⟩
    rw [Node.resolve?] at hl
    split at hl
    · rename_i b hb
      cases hl
      exact .literal hv (Node.literalBody?_eq_some_iff.mp hb)
    · obtain ⟨x, hx, hl⟩ := Option.bind_eq_some_iff.mp hl
      split at hl
      · rename_i hkind
        exact .bound hv (Node.unwrap?_eq_some_iff.mp hx) (beq_iff_eq.mp hkind) ((h _ _).mp hl)
      · exact nomatch hl
  · rintro (⟨hv, hb⟩ | ⟨hv, hx, hkind, hl⟩)
    · exact ⟨_, hv, by rw [Node.resolve?, Node.literalBody?_eq_some_iff.mpr hb]⟩
    · refine ⟨_, hv, ?_⟩
      rw [Node.resolve?, hx.literalBody?_eq_none hkind]
      simpa [hx.unwrap?_eq, hkind] using (h _ _).mpr hl

theorem Yields.congr (h : sites.filter (·.isBinding) = sites'.filter (·.isBinding)) {s : Node}
    (hl : Yields sites s l) : Yields sites' s l := by
  cases hl with
  | literal hv hb => exact .literal hv hb
  | bound hv hx hkind hlast =>
    exact .bound hv hx hkind (lastBinding_filter_iff.mp (h ▸ lastBinding_filter_iff.mpr hlast))

variable {f g : Node → List Site} {statements rest : List Node} {s : Node} {i : Nat}

/-- The statement at an index returns a literal, if the statements before it give values to
variables at the places that a function tells, and others did so before. -/
def ReturnsAt (f : Node → List Site) (sites : List Site) (statements : List Node) (i : Nat)
    (l : Node.Literal) : Prop :=
  ∃ s, statements[i]? = some s ∧ s.kind = .returnStatement ∧
    Yields (sites ++ (statements.take i).flatMap f) s l

/-- Statements return the literal that the first of them does which returns any. -/
def Returned (f : Node → List Site) (sites : List Site) (statements : List Node)
    (l : Node.Literal) : Prop :=
  ∃ i, ReturnsAt f sites statements i l ∧ ∀ j < i, ∀ l', ¬ReturnsAt f sites statements j l'

theorem returnsAt_zero_iff :
    ReturnsAt f sites (s :: rest) 0 l ↔ s.kind = .returnStatement ∧ Yields sites s l := by
  simp [ReturnsAt]

theorem returnsAt_succ_iff :
    ReturnsAt f sites (s :: rest) (i + 1) l ↔ ReturnsAt f (sites ++ f s) rest i l := by
  simp [ReturnsAt]

theorem returned_cons_iff :
    Returned f sites (s :: rest) l ↔
      (s.kind = .returnStatement ∧ Yields sites s l) ∨
        (∀ l', ¬(s.kind = .returnStatement ∧ Yields sites s l')) ∧
          Returned f (sites ++ f s) rest l := by
  constructor
  · rintro ⟨i, hi, hfirst⟩
    cases i with
    | zero => exact .inl (returnsAt_zero_iff.mp hi)
    | succ i =>
      refine .inr ⟨fun l' hl' => hfirst 0 i.succ_pos l' (returnsAt_zero_iff.mpr hl'), i,
        returnsAt_succ_iff.mp hi, fun j hj l' hl' => ?_⟩
      exact hfirst (j + 1) (Nat.succ_lt_succ hj) l' (returnsAt_succ_iff.mpr hl')
  · rintro (h | ⟨hnone, i, hi, hfirst⟩)
    · exact ⟨0, returnsAt_zero_iff.mpr h, nofun⟩
    · refine ⟨i + 1, returnsAt_succ_iff.mpr hi, fun j hj l' hl' => ?_⟩
      cases j with
      | zero => exact hnone l' (returnsAt_zero_iff.mp hl')
      | succ j => exact hfirst j (Nat.lt_of_succ_lt_succ hj) l' (returnsAt_succ_iff.mp hl')

/-- If a statement returns a literal, then there is a first one that does. -/
theorem exists_returned_iff :
    (∃ l, Returned f sites statements l) ↔ ∃ i l, ReturnsAt f sites statements i l := by
  classical -- whether a statement returns a literal is decided to find the first one
  constructor
  · rintro ⟨l, i, hi, -⟩
    exact ⟨i, l, hi⟩
  · intro h
    obtain ⟨l, hl⟩ := Nat.find_spec h
    exact ⟨l, _, hl, fun j hj l' hl' => Nat.find_min h hj ⟨l', hl'⟩⟩

/-- Only places that bind a variable matter. -/
theorem returned_congr
    (h : ∀ s ∈ statements, (f s).filter (·.isBinding) = (g s).filter (·.isBinding)) :
    Returned f sites statements l ↔ Returned g sites statements l := by
  have hreturns (i : Nat) (l : Node.Literal) :
      ReturnsAt f sites statements i l ↔ ReturnsAt g sites statements i l := by
    have hsites : (sites ++ (statements.take i).flatMap f).filter (·.isBinding) =
        (sites ++ (statements.take i).flatMap g).filter (·.isBinding) := by
      rw [List.filter_append, List.filter_append, List.filter_flatMap, List.filter_flatMap,
        List.flatMap_congr fun s hs => h s (List.mem_of_mem_take hs)]
    refine exists_congr fun s => and_congr_right fun _ => and_congr_right fun _ => ?_
    exact ⟨Yields.congr hsites, Yields.congr hsites.symm⟩
  simp only [Returned, hreturns]

/-- A literal that is returned is a value of a return, or a value at one of the places. -/
theorem Returned.expression_mem (h : Returned f [] statements l) :
    ∃ s ∈ statements, l.expression ∈ s.returnValues ++ (f s).flatMap (·.values) := by
  obtain ⟨i, ⟨s, hs, -, hyields⟩, -⟩ := h
  rw [List.nil_append] at hyields
  cases hyields with
  | literal hv _ =>
    exact ⟨s, List.mem_of_getElem? hs, List.mem_append_left _ (List.mem_of_head? hv)⟩
  | bound _ _ _ hlast =>
    obtain ⟨before, site, after, hsites, ⟨-, -, -, hvalues, -⟩, -⟩ := hlast
    have hsite : site ∈ (statements.take i).flatMap f := by simp [hsites]
    obtain ⟨s, hs, hsite⟩ := List.mem_flatMap.mp hsite
    exact ⟨s, List.mem_of_mem_take hs, List.mem_append_right _
      (List.mem_flatMap.mpr ⟨site, hsite, by simp [hvalues]⟩)⟩

/-- The literal that statements return after some bindings. -/
theorem returnedFrom?_eq_some_iff (h : Holds bindings sites) :
    Node.returnedFrom? bindings statements = some l ↔
      Returned Node.reachedSites sites statements l := by
  induction statements generalizing bindings sites with
  | nil =>
    refine ⟨nofun, ?_⟩
    rintro ⟨i, ⟨s, hs, -⟩, -⟩
    exact nomatch hs
  | cons s rest ih =>
    rw [Node.returnedFrom?, returned_cons_iff]
    split
    · rename_i hkind
      have hreturn := beq_iff_eq.mp hkind
      -- a return gives values to no variables, so the bindings hold for the statements behind it
      have hsites : s.reachedSites = [] := by simp [Node.reachedSites, hreturn]
      simp only [hreturn, true_and, ← bind_resolve?_eq_some_iff h, hsites, List.append_nil]
      cases hvalue : s.returnValues.head?.bind (Node.resolve? bindings) with
      | none => simpa using ih h
      | some l' => simp
    · rename_i hkind
      have hreturn : s.kind ≠ .returnStatement := fun h => hkind (beq_iff_eq.mpr h)
      have hholds := h.foldl_bindSite s.reachedSites
      rw [← Node.bindStatement_eq] at hholds
      simpa [hreturn] using ih hholds

/-- A function returns the literal that the statements of its body return, where all places count
that are searched. If all places that bind a variable are those of the statements themselves, it
returns a literal exactly if one of its returns yields one, namely that of the first such return. -/
theorem Node.returnedLiteral_iff (n : Node) :
    (∀ l, n.returnedLiteral? = some l ↔ Returned reachedSites [] n.bodyStatements l) ∧
      ((∀ s ∈ n.bodyStatements, s.Shallow) →
        (n.returnedLiteral?.isSome = true ↔ ∃ i l, ReturnsAt ownSites [] n.bodyStatements i l) ∧
          ∀ l, n.returnedLiteral? = some l ↔ Returned ownSites [] n.bodyStatements l) := by
  have hreached (l : Literal) :
      n.returnedLiteral? = some l ↔ Returned reachedSites [] n.bodyStatements l :=
    returnedFrom?_eq_some_iff holds_nil
  refine ⟨hreached, fun hshallow => ?_⟩
  have hown (l : Literal) :
      n.returnedLiteral? = some l ↔ Returned ownSites [] n.bodyStatements l :=
    (hreached l).trans (returned_congr hshallow)
  exact ⟨by simp only [Option.isSome_iff_exists, hown, exists_returned_iff], hown⟩

/-- The function with a name in a source with a content. -/
def functionIn? (content name : Text) : Option Node :=
  (Source.ofContent "a.go" content).toOption.bind (·.function? name)

/-- A function with a group of variables, one of which is bound anew, also in a block, and returned
in parentheses. -/
def rebindingSource : Text :=
  "package p\n\nfunc widget() R \x7b\n\tvar (\n\t\tr = R\x7bA: 1\x7d\n\t\tn = 2\n\t)\n" ++
    "\tr = R\x7bA: 2\x7d\n\tif n == 3 \x7b\n\t\tr = R\x7bA: 3\x7d\n\t\x7d\n\treturn (r)\n\x7d\n"

set_option maxRecDepth 100000 in
private theorem rebindingSource_returns :
    (functionIn? rebindingSource "widget").any (fun n =>
      decide (∀ s ∈ n.bodyStatements, s.Shallow) &&
        n.returnedLiteral?.any (·.expression.text == ("R\x7bA: 2\x7d" : Text))) = true := by
  decide +kernel

/-- The variable is returned as the body itself binds it last. -/
theorem Node.returnedLiteral_iff_of_rebinding :
    ∃ n l, functionIn? rebindingSource "widget" = some n ∧ (∀ s ∈ n.bodyStatements, s.Shallow) ∧
      n.returnedLiteral? = some l ∧ l.expression.text = ("R\x7bA: 2\x7d" : Text) ∧
      Returned ownSites [] n.bodyStatements l := by
  obtain ⟨n, hn, h⟩ := (Option.any_eq_true _ _).mp rebindingSource_returns
  obtain ⟨hshallow, hreturns⟩ := Bool.and_eq_true_iff.mp h
  obtain ⟨l, hl, htext⟩ := (Option.any_eq_true _ _).mp hreturns
  have hshallow := of_decide_eq_true hshallow
  exact ⟨n, l, hn, hshallow, hl, beq_iff_eq.mp htext,
    (((returnedLiteral_iff n).2 hshallow).2 l).mp hl⟩

/-- A function that returns a variable, after a function literal with a variable of the same
name. -/
def shadowingSource : Text :=
  "package p\n\nfunc widget() *R \x7b\n\tr := &R\x7bA: 1\x7d\n\tvar check = func() \x7b\n" ++
    "\t\tvar r = &R\x7bA: 2\x7d\n\t\tuse(r)\n\t\x7d\n\tcheck()\n\treturn r\n\x7d\n"

set_option maxRecDepth 100000 in
private theorem shadowingSource_returns :
    (functionIn? shadowingSource "widget").any (fun n =>
      n.returnedLiteral?.any (·.expression.text == ("&R\x7bA: 2\x7d" : Text)) &&
        n.bodyStatements.all fun s => (s.returnValues ++ s.ownSites.flatMap (·.values)).all
          (·.text != ("&R\x7bA: 2\x7d" : Text))) = true := by
  decide +kernel

/-- The literal that a function returns need not be one that the statements of its body themselves
return: a variable of a function literal can take the place of a variable of the body. -/
theorem Node.returnedLiteral_leaks :
    ¬∀ (content name : Text) (n : Node), functionIn? content name = some n →
      ∀ l, n.returnedLiteral? = some l ↔ Returned ownSites [] n.bodyStatements l := by
  intro h
  obtain ⟨n, hn, hleaks⟩ := (Option.any_eq_true _ _).mp shadowingSource_returns
  obtain ⟨hreturns, hvalues⟩ := Bool.and_eq_true_iff.mp hleaks
  obtain ⟨l, hl, htext⟩ := (Option.any_eq_true _ _).mp hreturns
  obtain ⟨s, hs, hvalue⟩ := ((h _ _ n hn l).mp hl).expression_mem
  have hother := List.all_eq_true.mp (List.all_eq_true.mp hvalues s hs) _ hvalue
  exact absurd (beq_iff_eq.mp htext) (bne_iff_ne.mp hother)

end ProviderCatalog.Go
