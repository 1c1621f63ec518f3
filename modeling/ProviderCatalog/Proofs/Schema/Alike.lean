import ProviderCatalog.Proofs.Computation
import ProviderCatalog.Proofs.Go.AlikeValues
import ProviderCatalog.Schema.Registration
import ProviderCatalog.Schema.Service

/-!
# Registrations and services of sources that are alike

Sources are alike if their trees are. They declare the same functions, in the same order, and what
registers resources and describes services is read off them alike: the names are strings, callees
and tokens, and the types that tell maps and lists of resources from others have the same texts.

## Main definitions

* `Source.Alike`: sources whose trees are alike.
* `Found.Alike`: registrations that are the same, in sources that are alike.

## Main results

* `Source.alike_ofTree`: the index of a tree.
* `registrations_agree`: the registrations of sources.
* `services_eq`: the services of sources.
-/

namespace ProviderCatalog

namespace Go

/-! ### Sources -/

/-- Trees that are alike, under one name. -/
abbrev Node.AlikeNamed (x x' : Text × Node) : Prop := x.1 = x'.1 ∧ x.2.Alike x'.2

/-- Sources with one path whose trees are alike, with the same functions and methods. -/
structure Source.Alike (s s' : Source) : Prop where
  path : s.path = s'.path
  root : s.root.Alike s'.root
  functions : List.Forall₂ Node.AlikeNamed s.functions s'.functions
  methods : List.Forall₂ Node.Alike s.methods s'.methods

theorem alike_addFunction {fs fs' : List (Text × Node)} {d d' : Node}
    (h : List.Forall₂ Node.AlikeNamed fs fs') (hd : d.Alike d') :
    List.Forall₂ Node.AlikeNamed (addFunction fs d) (addFunction fs' d') := by
  have hnames : fs.map (·.1) = fs'.map (·.1) := map_eq_of_forall₂ h fun _ _ hf => hf.1
  have hany (fs : List (Text × Node)) :
      fs.any (·.1 == d.declaredName) = (fs.map (·.1)).any (· == d.declaredName) := by
    rw [List.any_map]
    rfl
  rw [addFunction, addFunction, ← hd.declaredName, hany, hany fs', ← hnames]
  split
  · exact h
  · exact List.rel_append h (.cons ⟨rfl, hd⟩ .nil)

/-- The phrases of a kind are among those that are no comments. -/
theorem Node.filter_namedChildren {k : Kind} (hk : k ≠ .comment) (n : Node) :
    n.namedChildren.filter (·.kind == k) = n.phrases.filter (·.kind == k) := by
  rw [phrases, List.filter_filter]
  refine List.filter_congr fun c _ => ?_
  by_cases hc : c.kind = k
  · simp [isComment, hc, hk]
  · simp [hc]

namespace Source

/-- Trees that are alike have indices that are alike. -/
theorem alike_ofTree (path : Text) {root root' : Node} (h : root.Alike root') :
    (ofTree path root).Alike (ofTree path root') := by
  have hchildren (k : Kind) (hk : k ≠ .comment) : List.Forall₂ Node.Alike
      (root.namedChildren.filter (·.kind == k)) (root'.namedChildren.filter (·.kind == k)) := by
    rw [Node.filter_namedChildren hk, Node.filter_namedChildren hk]
    exact rel_filter h.phrases fun _ _ hd => by rw [hd.kind]
  have hfunctions :
      List.Forall₂ Node.AlikeNamed (ofTree path root).functions (ofTree path root').functions :=
    List.rel_foldl (P := List.Forall₂ Node.AlikeNamed) (R := Node.Alike)
      (fun _ _ hfs _ _ hd => alike_addFunction hfs hd) .nil (hchildren _ nofun)
  exact ⟨rfl, h, hfunctions, hchildren _ nofun⟩

variable {s s' : Source}

theorem Alike.function? (h : s.Alike s') (name : Text) :
    Option.Rel Node.Alike (s.function? name) (s'.function? name) :=
  rel_lookup h.functions name

end Source

end Go

namespace Schema

open Go (Node Source)

variable {n n' : Node} {s s' : Source} {ss ss' : List Source}

/-! ### Maps of resources -/

theorem map_text_child?_of_bare (h : n.bare = n'.bare) (r : Go.Role) :
    (n.child? r).map Node.text = (n'.child? r).map Node.text := by
  have hbare (n : Node) : (n.bare.child? r).map Node.text = (n.child? r).map Node.text := by
    fun_cases Node.bare n with
    | case1 => rfl
    | case2 => rfl
    | case3 k r' m cs =>
      by_cases hr : r' = r
      · simp [Node.child?, Node.children, Node.parts, hr, Node.text]
      · simp [Node.child?, Node.children, Node.parts, hr]
  rw [← hbare, h, hbare]

theorem alike_registrationMap? (h : n.Alike n') :
    Option.Rel Node.Alike (registrationMap? n) (registrationMap? n') := by
  rw [registrationMap?, registrationMap?, ← h.kind]
  split
  · exact .none
  · refine rel_bind (h.child? .type (by decide)) fun t t' ht => ?_
    rw [← ht.alike.kind]
    split
    · exact .none
    · rename_i hkind
      obtain hkind : t.kind = .mapType := by simpa using hkind
      have htype : t.isType = true := by rw [Node.isType, hkind]; rfl
      have hvalue := map_text_child?_of_bare (ht.kept (.inr htype)) .value
      dsimp only
      rw [← hvalue]
      split
      · exact rel_imp (h.child? .body (by decide)) fun _ _ hb => hb.alike
      · exact .none

theorem mapElement?_eq {e e' : Node × Node} (h : Node.AlikeElement e e') :
    mapElement? e = mapElement? e' := by
  rw [mapElement?, mapElement?, h.key.stringValue?, h.value.callName?]

/-- A comment is no map of registrations. -/
theorem filterMap_registrationMap? (ns : List Node) :
    ns.filterMap registrationMap? = (ns.filter (!·.isComment)).filterMap registrationMap? := by
  rw [List.filterMap_filter]
  refine List.filterMap_congr fun n _ => ?_
  cases hn : n.isComment with
  | false => rfl
  | true =>
    rw [registrationMap?, beq_iff_eq.mp hn]
    rfl

theorem mapEntries_eq (h : s.Alike s') : mapEntries s = mapEntries s' := by
  rw [mapEntries, mapEntries, filterMap_registrationMap?, filterMap_registrationMap? s'.root.walk]
  exact flatMap_eq_of_forall₂
    (List.rel_filterMap (fun _ _ hn => alike_registrationMap? hn) h.root.walk)
    fun _ _ hb => filterMap_eq_of_forall₂ hb.keyedElements fun _ _ he => mapElement?_eq he

/-! ### Lists of structures -/

/-- The result of a function is a type, whose text is kept, or a list of parameters, whose text
begins with a parenthesis. -/
theorem text_result_cases {t t' : Node} (h : Node.AlikePart (.result, t) (.result, t')) :
    t.text = t'.text ∨ t.text.startsWith "[]" = false ∧ t'.text.startsWith "[]" = false := by
  obtain ⟨-, htype | hlist, halike, hkept⟩ := h
  · have hbare := congrArg Node.chars (hkept (.inr htype))
    rw [Node.chars_bare, Node.chars_bare] at hbare
    exact .inl (congrArg Text.ofChars hbare)
  · dsimp only at halike
    cases halike with
    | leaf => exact .inl rfl
    | branch k hk hk' _ =>
      obtain rfl : k = .parameterList := hlist
      obtain ⟨leading, rest, rfl⟩ := hk
      obtain ⟨leading', rest', rfl⟩ := hk'
      exact .inr ⟨rfl, rfl⟩

theorem listKind?_eq (h : n.Alike n') : listKind? n = listKind? n' := by
  have hresult := h.child? .result nofun
  rw [listKind?, listKind?, ← h.declaredName, ← h.parameterCount]
  generalize n.child? .result = x, n'.child? .result = x' at hresult
  cases hresult with
  | none => rfl
  | some ht =>
    rcases text_result_cases ht with htext | ⟨hstart, hstart'⟩
    · simp only [Option.map_some, Option.getD_some, htext]
    · simp only [Option.map_some, Option.getD_some, hstart, hstart', Bool.and_false,
        Bool.false_and]

/-- What is made of the text of a name, and of no other type. -/
theorem ofName?_eq {α : Type} (h : n.Alike n') (f : Text → Option α) :
    (if n.kind == .identifier || n.kind == .typeIdentifier then f n.text else none) =
      if n'.kind == .identifier || n'.kind == .typeIdentifier then f n'.text else none := by
  rw [← h.kind]
  split
  · rename_i hkind
    have htoken := h.isToken fun cs => by
      rcases (Bool.or_eq_true _ _).mp hkind with hkind | hkind
      · simp [beq_iff_eq.mp hkind, Go.Kind.Admits]
      · simp [beq_iff_eq.mp hkind, Go.Kind.Admits]
    rw [h.text_of_isToken htoken]
  · rfl

theorem elementName?_eq (h : n.Alike n') (providerPrefix : Text) :
    elementName? providerPrefix n = elementName? providerPrefix n' := by
  have hname {t t' : Node} (ht : t.Alike t') := ofName?_eq ht fun name =>
    if (resourceName name providerPrefix).isEmpty then none
    else some (resourceName name providerPrefix)
  rw [elementName?, elementName?, ← h.kind]
  split
  · exact bind_eq_of_rel (h.child? .type nofun) fun _ _ ht => hname ht.alike
  · exact hname h

theorem listedNames_eq (h : n.Alike n') (providerPrefix : Text) :
    listedNames providerPrefix n = listedNames providerPrefix n' := by
  refine flatMap_eq_of_forall₂ (rel_filter h.bodyStatements fun _ _ hs => by rw [hs.kind])
    fun st st' hs => ?_
  have hbody := rel_bind (rel_head? hs.returnValues) fun _ _ hv => hv.literalBody?
  generalize st.returnValues.head?.bind Node.literalBody? = x,
    st'.returnValues.head?.bind Node.literalBody? = x' at hbody
  cases hbody with
  | none => rfl
  | some hb => exact filterMap_eq_of_forall₂ hb.listElements fun _ _ he => elementName?_eq he _

theorem listEntries_eq (h : s.Alike s') (providerPrefix : Text) :
    listEntries providerPrefix s = listEntries providerPrefix s' := by
  refine flatMap_eq_of_forall₂
    (List.rel_append (List.rel_map (fun _ _ hf => hf.2) h.functions) h.methods) fun d d' hd => ?_
  rw [listKind?_eq hd, listedNames_eq hd]

/-! ### Registrations -/

/-- Registrations that are the same, in sources that are alike. -/
structure Found.Alike (f f' : Found) : Prop where
  registration : f.1 = f'.1
  source : f.2.Alike f'.2

/-- The registrations of one idiom. -/
theorem agree_made {α : Type} (entries : Source → List α)
    (hentries : ∀ s s', s.Alike s' → entries s = entries s')
    (make : α → Except Invalid Registration) (h : List.Forall₂ Source.Alike ss ss') :
    Agree (List.Forall₂ Found.Alike)
      ((ss.flatMap fun s => (entries s).map (·, s)).mapM fun x => do return (← make x.1, x.2))
      ((ss'.flatMap fun s => (entries s).map (·, s)).mapM fun x => do
        return (← make x.1, x.2)) := by
  have hall : List.Forall₂ (fun x x' : α × Source => x.1 = x'.1 ∧ x.2.Alike x'.2)
      (ss.flatMap fun s => (entries s).map (·, s))
      (ss'.flatMap fun s => (entries s).map (·, s)) := by
    refine List.rel_flatMap h fun s s' hs => ?_
    rw [← hentries s s' hs]
    exact List.forall₂_map_left_iff.mpr (List.forall₂_map_right_iff.mpr
      (List.forall₂_same.mpr fun _ _ => ⟨rfl, hs⟩))
  refine Agree.mapM hall fun x x' hx => ?_
  rw [← hx.1]
  exact (Agree.refl (make x.1)).seq fun r r' hr => .ok ⟨hr, hx.2⟩

theorem alike_firstOfKeys {fs fs' : List Found} (h : List.Forall₂ Found.Alike fs fs')
    (seen : List (Text × ResourceKind)) :
    List.Forall₂ Found.Alike (firstOfKeys seen fs) (firstOfKeys seen fs') := by
  induction h generalizing seen with
  | nil => exact .nil
  | cons hf _ ih =>
    rw [firstOfKeys, firstOfKeys, ← hf.registration]
    split
    · exact ih _
    · exact .cons hf (ih _)

/-- The same is registered in sources that are alike. -/
theorem registrations_agree (providerPrefix : Text) (h : List.Forall₂ Source.Alike ss ss') :
    Agree (List.Forall₂ Found.Alike) (registrations providerPrefix ss)
      (registrations providerPrefix ss') := by
  have hmaps : Agree (List.Forall₂ Found.Alike) (mapRegistrations ss) (mapRegistrations ss') :=
    agree_made mapEntries (fun _ _ => mapEntries_eq)
      (fun x => Registration.make x.1 (some x.2) (.ofBuilder x.2)) h
  have hlists : Agree (List.Forall₂ Found.Alike) (listRegistrations providerPrefix ss)
      (listRegistrations providerPrefix ss') :=
    agree_made (listEntries providerPrefix) (fun _ _ hs => listEntries_eq hs _)
      (fun x => Registration.make x.1 none x.2) h
  exact hmaps.seq fun _ _ hm => hlists.seq fun _ _ hl =>
    .ok (alike_firstOfKeys (List.rel_append hm hl) [])

/-! ### Services -/

theorem alike_accessor? (h : s.Alike s') (name : Text) :
    Option.Rel Node.Alike (accessor? s name) (accessor? s' name) :=
  rel_find? (List.rel_append h.methods (List.rel_map (fun _ _ hf => hf.2) h.functions))
    fun _ _ hd => by rw [hd.declaredName, hd.parameterCount]

theorem alike_firstReturned? (h : n.Alike n') :
    Option.Rel Node.Alike (firstReturned? n) (firstReturned? n') :=
  rel_findSome? (rel_filter h.bodyStatements fun _ _ hs => by rw [hs.kind]) fun _ _ hs =>
    rel_head? hs.returnValues

/-- The value that an accessor returns. -/
theorem alike_returned? (h : s.Alike s') (name : Text) :
    Option.Rel Node.Alike ((accessor? s name).bind firstReturned?)
      ((accessor? s' name).bind firstReturned?) :=
  rel_bind (alike_accessor? h name) fun _ _ hd => alike_firstReturned? hd

theorem returnedString?_eq (h : s.Alike s') (name : Text) :
    returnedString? s name = returnedString? s' name :=
  bind_eq_of_rel (alike_returned? h name) fun _ _ hv => hv.stringValue?

theorem returnedStrings_eq (h : s.Alike s') (name : Text) :
    returnedStrings s name = returnedStrings s' name := by
  have hbody := rel_bind (alike_returned? h name) fun _ _ hv => hv.literalBody?
  rw [returnedStrings, returnedStrings]
  generalize ((accessor? s name).bind firstReturned?).bind Node.literalBody? = x,
    ((accessor? s' name).bind firstReturned?).bind Node.literalBody? = x' at hbody
  cases hbody with
  | none => rfl
  | some hb =>
    dsimp only
    rw [filterMap_eq_of_forall₂ hb.listElements fun _ _ he => he.stringValue?]

theorem Service.ofSource?_eq (h : s.Alike s') : ofSource? s = ofSource? s' := by
  simp only [ofSource?, h.path, returnedString?_eq h, returnedStrings_eq h]

/-- Sources that are alike describe the same services. -/
theorem services_eq (h : List.Forall₂ Source.Alike ss ss') : services ss = services ss' := by
  have hservices : Agree (List.Forall₂ Eq) (ss.mapM Service.ofSource?)
      (ss'.mapM Service.ofSource?) := by
    refine Agree.mapM h fun s s' hs => ?_
    rw [← Service.ofSource?_eq hs]
    exact Agree.refl _
  rw [List.forall₂_eq_eq_eq] at hservices
  rw [services, services, hservices.eq]

end Schema

end ProviderCatalog
