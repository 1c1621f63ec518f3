import ProviderCatalog.Proofs.Schema.Alike
import ProviderCatalog.Proofs.Schema.Columns
import ProviderCatalog.Proofs.Schema.Extending

/-!
# Resources of sources that are alike

Builders and schemas are found alike in sources that are alike, so registrations that can be
resolved in the ones can be resolved in the others. Flags, counts and strings are read alike off
schema literals that are alike, and a column of an attribute that takes nothing else is the same.
Columns that take the text of an expression are not the same in general: the text is read with the
comments in it.

## Main definitions

* `IsLegible`: the columns of a schema literal that take no text of an expression.
* `Provider.schemaEntries`: the names and the schema literals of the attributes of a registration.
* `SameReading`: schema entries that set the legible columns alike.
* `Provider.Alike`: providers whose sources are alike.
* `Provider.MadeAlike`: resources of one registration with attributes that are read alike.
* `Provider.SameStructure`: providers that read the same from their sources.

## Main results

* `column?_columns_eq`: the columns of schema literals that are alike.
* `Provider.attributes_of_resource`: the attributes of a resource are those of its schema entries.
* `Provider.Alike.builder`, `Provider.Alike.schemaBody?`: builders and schemas are found alike.
* `Provider.Alike.resources`: the resources of registrations.
* `Provider.Alike.sameStructure`: what is read from sources that are alike.
-/

namespace ProviderCatalog.Schema

open Go (Node Source)

/-! ### Columns -/

theorem columns_set (a : Attribute) (n : Node) :
    (attributeFields.map fun f => (columnsOf f.1).map fun c => (f.2 a n).column? c) =
      attributeFields.map fun f => (columnsOf f.1).map fun c => some (readColumn c n) := by
  rfl

/-- A field that owns a column puts in it what the column takes from the value of the field. -/
theorem column?_setNamed_of_mem (a : Attribute) (field : Text × Node) {c : Text}
    (hc : c ∈ columnsOf field.1) : (setNamed a field).column? c = some (readColumn c field.2) := by
  rw [setNamed]
  split
  · rename_i set hset
    have hcolumns := List.map_inj_left.mp (columns_set a field.2) _ (mem_attributeFields hset)
    exact List.map_inj_left.mp hcolumns c hc
  · rename_i hnone
    rw [columnsOf_eq_nil hnone] at hc
    exact absurd hc List.not_mem_nil

/-- Whether a column of a literal is a name, a flag or a count, or nothing sets it, or else string
literals spell what the last field puts in it that owns it. -/
def IsLegible (c : Text) (b : Node) : Prop :=
  c = "name" ∨ c ∈ flagColumns ∨ c ∈ countColumns ∨
    ∀ field ∈ (owners c b.fields).getLast?, isSpelledOut c field.2 = true

variable {n n' b b' : Node} {c : Text}

theorem stringOrText?_eq (h : n.Alike n') (hspelled : n.stringValue?.isSome = true) :
    stringOrText? n = stringOrText? n' := by
  obtain ⟨t, ht⟩ := Option.isSome_iff_exists.mp hspelled
  rw [stringOrText?, stringOrText?, ← h.stringValue?, ht]

theorem listText?_eq (h : n.Alike n')
    (hspelled : (n.literalBody?.any fun b => b.listElements.all (·.stringValue?.isSome)) = true) :
    listText? n = listText? n' := by
  have hbody := h.literalBody?
  rw [listText?, listText?]
  generalize n.literalBody? = x, n'.literalBody? = x' at hbody hspelled
  cases hbody with
  | none => exact nomatch hspelled
  | some hb =>
    have helements := (List.forall₂_and_left _ _).mpr
      ⟨List.all_eq_true.mp hspelled, hb.listElements⟩
    dsimp only
    rw [filterMap_eq_of_forall₂ helements fun _ _ he => stringOrText?_eq he.2 he.1]

theorem fieldSummary?_eq {e e' : Node × Node} (h : Node.AlikeElement e e')
    (hspelled : (e.2.stringValue?.bind present?).isSome = true) :
    fieldSummary? e = fieldSummary? e' := by
  obtain ⟨t, ht⟩ := Option.isSome_iff_exists.mp hspelled
  obtain ⟨v, hv, ht⟩ := Option.bind_eq_some_iff.mp ht
  have hstring : stringOrText? e.2 = some t := by
    rw [stringOrText?, hv]
    exact ht
  rw [fieldSummary?, fieldSummary?, h.name, ← stringOrText?_eq h.value (by rw [hv]; rfl), hstring]
  rfl

theorem elementSummary?_eq (h : n.Alike n')
    (hspelled : (n.literalBody?.any fun b =>
      b.keyedElements.all fun e => (e.2.stringValue?.bind present?).isSome) = true) :
    elementSummary? n = elementSummary? n' := by
  have hbody := h.literalBody?
  rw [elementSummary?, elementSummary?]
  generalize n.literalBody? = x, n'.literalBody? = x' at hbody hspelled
  cases hbody with
  | none => exact nomatch hspelled
  | some hb =>
    have helements := (List.forall₂_and_left _ _).mpr
      ⟨List.all_eq_true.mp hspelled, hb.keyedElements⟩
    dsimp only
    rw [filterMap_eq_of_forall₂ helements fun _ _ he => fieldSummary?_eq he.2 he.1]

/-- Values that are alike put the same in a column of flags or of counts, and in others what string
literals spell. -/
theorem readColumn_eq (h : n.Alike n')
    (hlegible : c ∈ flagColumns ∨ c ∈ countColumns ∨ isSpelledOut c n = true) :
    readColumn c n = readColumn c n' := by
  rw [readColumn, readColumn]
  by_cases hflag : c ∈ flagColumns
  · rw [if_pos hflag, if_pos hflag, h.isTrue]
  by_cases hcount : c ∈ countColumns
  · rw [if_neg hflag, if_neg hflag, if_pos hcount, if_pos hcount, h.intValue?]
  have hspelled := (hlegible.resolve_left hflag).resolve_left hcount
  rw [isSpelledOut] at hspelled
  rw [if_neg hflag, if_neg hflag, if_neg hcount, if_neg hcount]
  split at hspelled
  · rename_i hstring
    rw [if_pos hstring, if_pos hstring, stringOrText?_eq h hspelled]
  · rename_i hstring
    rw [if_neg hstring, if_neg hstring]
    split at hspelled
    · rename_i hlist
      rw [if_pos hlist, if_pos hlist, listText?_eq h hspelled]
    · rename_i hlist
      obtain ⟨hsummary, hspelled⟩ := Bool.and_eq_true_iff.mp hspelled
      rw [if_neg hlist, if_neg hlist, if_pos (beq_iff_eq.mp hsummary),
        if_pos (beq_iff_eq.mp hsummary), elementSummary?_eq h hspelled]

/-- The fields of literals that are alike. -/
theorem alike_fields (h : b.Alike b') :
    List.Forall₂ Node.AlikeNamed b.fields b'.fields :=
  List.rel_map (fun _ _ he => ⟨he.name, he.value⟩) h.keyedElements

/-- No field owns the column of the name. -/
theorem name_notMem_columnsOf (field : Text) : ("name" : Text) ∉ columnsOf field := by
  intro hname
  have htable : ∀ p ∈ fieldColumns, ("name" : Text) ∉ p.2 := by
    decide +kernel
  exact htable _ (mem_fieldColumns hname) hname

/-- Literals that are alike set the legible columns alike. -/
theorem column?_columns_eq (h : b.Alike b') (name : Text) (hlegible : IsLegible c b) :
    (columns name b).column? c = (columns name b').column? c := by
  have howners : Option.Rel Node.AlikeNamed
      (owners c b.fields).getLast? (owners c b'.fields).getLast? := by
    rw [← List.head?_reverse, ← List.head?_reverse]
    exact rel_head? (List.rel_reverse (rel_filter (alike_fields h) fun _ _ hf => by rw [hf.1]))
  have hown : ∀ field ∈ (owners c b.fields).getLast?, c ∈ columnsOf field.1 :=
    fun _ hfield => of_decide_eq_true (List.mem_filter.mp (List.mem_of_getLast? hfield)).2
  rw [columns_eq_foldl, columns_eq_foldl, column?_foldl_setNamed, column?_foldl_setNamed]
  rw [IsLegible] at hlegible
  generalize (owners c b.fields).getLast? = x, (owners c b'.fields).getLast? = x'
    at howners hown hlegible
  cases howners with
  | none => rfl
  | @some field field' hfield =>
    have hc := hown field rfl
    have hreads : c ∈ flagColumns ∨ c ∈ countColumns ∨ isSpelledOut c field.2 = true := by
      rcases hlegible with rfl | hflag | hcount | hspelled
      · exact absurd hc (name_notMem_columnsOf _)
      · exact .inl hflag
      · exact .inr (.inl hcount)
      · exact .inr (.inr (hspelled field rfl))
    dsimp only
    rw [column?_setNamed_of_mem _ _ hc, column?_setNamed_of_mem _ _ (hfield.1 ▸ hc),
      readColumn_eq hfield.2 hreads]

/-! ### Entries of schemas -/

/-- Entries of schemas with one name, whose literals set the legible columns alike. -/
structure SameReading (e e' : Text × Node) : Prop where
  name : e.1 = e'.1
  column : ∀ c, IsLegible c e.2 → (columns e.1 e.2).column? c = (columns e'.1 e'.2).column? c

namespace Provider

/-- Providers with one prefix whose sources are alike. -/
structure Alike (p p' : Provider) : Prop where
  samePrefix : p.providerPrefix = p'.providerPrefix
  sources : List.Forall₂ Source.Alike p.sources p'.sources

/-- Builders with one name and literals that are alike, in sources that are alike. -/
structure Builder.Alike (b b' : Builder) : Prop where
  name : b.name = b'.name
  source : b.source.Alike b'.source
  literal : b.literal.Alike b'.literal

variable {p p' : Provider} {s s' : Source} {f f' : Found}

theorem schemaElement?_alike {e e' : Node × Node} (h : Node.AlikeElement e e') :
    Option.Rel Node.AlikeNamed (schemaElement? e) (schemaElement? e') := by
  have hnamed (name : Text) : Option.Rel Node.AlikeNamed
      (if name.isEmpty then none else e.2.literalBody?.map (name, ·))
      (if name.isEmpty then none else e'.2.literalBody?.map (name, ·)) := by
    split
    · exact .none
    · exact rel_map h.value.literalBody? fun _ _ hb => ⟨rfl, hb⟩
  rw [schemaElement?, schemaElement?, ← h.key.stringValue?, ← h.name]
  split
  · exact hnamed _
  · exact hnamed _

theorem Alike.function? (h : p.Alike p') (hs : s.Alike s') (name : Text) :
    Option.Rel (fun x x' => x.1.Alike x'.1 ∧ x.2.Alike x'.2) (p.function? name s)
      (p'.function? name s') := by
  have hfunction := hs.function? name
  rw [Provider.function?, Provider.function?]
  generalize s.function? name = x, s'.function? name = x' at hfunction
  cases hfunction with
  | some hd => exact .some ⟨hs, hd⟩
  | none =>
    exact rel_findSome? h.sources fun _ _ ht => rel_map (ht.function? name) fun _ _ hd => ⟨ht, hd⟩

theorem Alike.builder (h : p.Alike p') (hs : s.Alike s') (name : Text) :
    Agree Builder.Alike (p.builder name s) (p'.builder name s') := by
  have hfunction := h.function? hs name
  rw [Provider.builder, Provider.builder]
  generalize p.function? name s = x, p'.function? name s' = x' at hfunction
  cases hfunction with
  | none => exact .error _
  | @some d d' hd =>
    have hliteral := hd.2.returnedLiteral?
    dsimp only
    generalize d.2.returnedLiteral? = y, d'.2.returnedLiteral? = y' at hliteral
    cases hliteral with
    | none => exact .error _
    | some hl => exact .ok ⟨rfl, hd.1, hl⟩

theorem Builder.Alike.field? {b b' : Builder} (h : b.Alike b') (key : String) :
    Option.Rel Node.Alike (b.field? key) (b'.field? key) := h.literal.braces.fieldValue? key

theorem Alike.schemaBody? (h : p.Alike p') (hs : s.Alike s') (hn : n.Alike n') :
    Option.Rel Node.Alike (p.schemaBody? n s) (p'.schemaBody? n' s') := by
  have hbody := hn.literalBody?
  rw [Provider.schemaBody?, Provider.schemaBody?, ← hn.callName?]
  generalize n.literalBody? = x, n'.literalBody? = x' at hbody
  cases hbody with
  | some hb => exact .some hb
  | none =>
    dsimp only
    cases n.callName? with
    | none => exact .none
    | some name =>
      dsimp only [Option.bind_eq_bind, Option.bind_some]
      exact rel_bind (h.function? hs name) fun _ _ hd =>
        rel_bind hd.2.returnedLiteral? fun _ _ hl => .some hl.braces

/-- The names and the literals of the attributes that a builder gives a resource. -/
def builderEntries (p : Provider) (b : Builder) : List (Text × Node) :=
  match (b.field? "Schema").bind (p.schemaBody? · b.source) with
  | none => []
  | some braces => braces.keyedElements.filterMap schemaElement?

/-- The names and the literals of the attributes of a registration that can be resolved. -/
def schemaEntries (p : Provider) (f : Found) : List (Text × Node) :=
  match f.1.builder with
  | none => []
  | some name =>
    match p.builder name f.2 with
    | .ok b => p.builderEntries b
    | .error _ => []

theorem Alike.builderEntries (h : p.Alike p') {b b' : Builder} (hb : b.Alike b') :
    List.Forall₂ Node.AlikeNamed (p.builderEntries b) (p'.builderEntries b') := by
  have hbody := rel_bind (hb.field? "Schema") fun _ _ hv => h.schemaBody? hb.source hv
  rw [Provider.builderEntries, Provider.builderEntries]
  generalize (b.field? "Schema").bind (p.schemaBody? · b.source) = x,
    (b'.field? "Schema").bind (p'.schemaBody? · b'.source) = x' at hbody
  cases hbody with
  | none => exact .nil
  | some hbody =>
    exact List.rel_filterMap (fun _ _ he => schemaElement?_alike he) hbody.keyedElements

theorem Alike.schemaEntries (h : p.Alike p') (hf : Found.Alike f f') :
    List.Forall₂ Node.AlikeNamed (p.schemaEntries f) (p'.schemaEntries f') := by
  rw [Provider.schemaEntries, Provider.schemaEntries, ← hf.registration]
  cases f.1.builder with
  | none => exact .nil
  | some name =>
    have hbuilder := h.builder hf.source name
    dsimp only
    generalize p.builder name f.2 = x, p'.builder name f'.2 = x' at hbuilder
    cases hbuilder with
    | ok hb => exact h.builderEntries hb
    | error e => exact .nil

theorem sameReading_of_alikeNamed {e e' : Text × Node} (h : Node.AlikeNamed e e') :
    SameReading e e' :=
  ⟨h.1, fun _ hlegible => h.1 ▸ column?_columns_eq h.2 e.1 hlegible⟩

/-! ### Attributes -/

theorem builderAttributes_eq_mapM (p : Provider) (b : Builder) :
    p.builderAttributes b = (p.builderEntries b).mapM fun e => Attribute.ofLiteral e.1 e.2 := by
  rw [builderAttributes, builderEntries]
  cases b.field? "Schema" with
  | none => rfl
  | some v =>
    rw [Option.bind_some]
    dsimp only
    rw [attributes]
    cases p.schemaBody? v b.source <;> rfl

/-- The attributes of a resource are those of the entries of its schema. -/
theorem attributes_of_resource {x : Resource} (h : p.resource f.1 f.2 = .ok x) :
    x.attributes = (p.schemaEntries f).map fun e => columns e.1 e.2 := by
  rw [resource] at h
  rw [Provider.schemaEntries]
  cases hname : f.1.builder with
  | none =>
    rw [hname] at h
    cases h
    rfl
  | some name =>
    rw [hname] at h
    dsimp only at h ⊢
    obtain ⟨b, hb, h⟩ := except_bind_eq_ok.mp h
    rw [hb]
    rw [builtResource_eq] at h
    cases has : p.builderAttributes b with
    | error i =>
      rw [has] at h
      cases h
    | ok as =>
      rw [has] at h
      cases h
      rw [builderAttributes_eq_mapM] at has
      exact eq_map_of_mapM (fun _ _ ha => Attribute.eq_columns_of_ofLiteral ha) has

/-! ### Resources -/

/-- The attributes of a builder can be made if those of another one can be made that is alike. -/
theorem Alike.builderAttributes (h : p.Alike p') {b b' : Builder} (hb : b.Alike b') :
    Agree (fun _ _ => True) (p.builderAttributes b) (p'.builderAttributes b') := by
  have hmade {e e' : Text × Node} (he : Node.AlikeNamed e e') :
      Agree (fun _ _ => True) (Attribute.ofLiteral e.1 e.2) (Attribute.ofLiteral e'.1 e'.2) := by
    have hunit : (Attribute.ofLiteral e.1 e.2).map (fun _ => ()) =
        (Attribute.ofLiteral e'.1 e'.2).map fun _ => () := by
      rw [← he.1]
      exact Attribute.map_ofLiteral_congr fun _ => rfl
    exact (Agree.of_map_eq hunit).imp fun _ _ _ => trivial
  rw [builderAttributes_eq_mapM, builderAttributes_eq_mapM]
  exact (Agree.mapM (h.builderEntries hb) fun _ _ he => hmade he).imp fun _ _ _ => trivial

/-- Resources are made alike, with the names of their registrations. -/
theorem Alike.resource (h : p.Alike p') (hf : Found.Alike f f') :
    Agree (fun x x' => x.name = x'.name) (p.resource f.1 f.2) (p'.resource f'.1 f'.2) := by
  rw [Provider.resource, Provider.resource, ← hf.registration]
  cases f.1.builder with
  | none => exact .ok rfl
  | some name =>
    refine (h.builder hf.source name).seq fun b b' hb => Agree.mapError _ ?_
    rw [builtResource_eq, builtResource_eq]
    exact (h.builderAttributes hb).map fun _ _ _ => rfl

/-- Resources that two providers make of one registration, with attributes of the same names whose
legible columns are the same. -/
structure MadeAlike (p p' : Provider) (f f' : Found) (x x' : Resource) : Prop where
  registration : f.1 = f'.1
  path : f.2.path = f'.2.path
  resource : p.resource f.1 f.2 = .ok x
  resource' : p'.resource f'.1 f'.2 = .ok x'
  attributes : x.attributes = (p.schemaEntries f).map fun e => columns e.1 e.2
  attributes' : x'.attributes = (p'.schemaEntries f').map fun e => columns e.1 e.2
  entries : List.Forall₂ SameReading (p.schemaEntries f) (p'.schemaEntries f')

theorem MadeAlike.name {x x' : Resource} (h : MadeAlike p p' f f' x x') : x.name = x'.name := by
  have hkey := key_eq_of_resource h.resource
  have hkey' := key_eq_of_resource h.resource'
  rw [← h.registration, ← hkey] at hkey'
  exact (congrArg Prod.fst hkey').symm

theorem Alike.madeAlike (h : p.Alike p') (hf : Found.Alike f f') :
    Agree (MadeAlike p p' f f') (p.resource f.1 f.2) (p'.resource f'.1 f'.2) := by
  have hresource := h.resource hf
  have hentries := (h.schemaEntries hf).imp fun _ _ he => sameReading_of_alikeNamed he
  have hmade {x x' : Resource} (hx : p.resource f.1 f.2 = .ok x)
      (hx' : p'.resource f'.1 f'.2 = .ok x') : MadeAlike p p' f f' x x' :=
    ⟨hf.registration, hf.source.path, hx, hx', attributes_of_resource hx,
      attributes_of_resource hx', hentries⟩
  generalize p.resource f.1 f.2 = y, p'.resource f'.1 f'.2 = y' at hresource hmade
  cases hresource with
  | ok => exact .ok (hmade rfl rfl)
  | error e => exact .error e

/-- Resources that two providers make of one of several registrations. -/
def MadeFrom (p p' : Provider) (found found' : List Found) (x x' : Resource) : Prop :=
  ∃ f ∈ found, ∃ f' ∈ found', MadeAlike p p' f f' x x'

theorem MadeFrom.cons {found found' : List Found} {x x' : Resource} (f f' : Found)
    (h : MadeFrom p p' found found' x x') : MadeFrom p p' (f :: found) (f' :: found') x x' := by
  obtain ⟨g, hg, g', hg', hmade⟩ := h
  exact ⟨g, List.mem_cons_of_mem f hg, g', List.mem_cons_of_mem f' hg', hmade⟩

/-- The resources of registrations that are the same, and the warnings about the others. -/
theorem Alike.resources (h : p.Alike p') {found found' : List Found}
    (hfound : List.Forall₂ Found.Alike found found') :
    Agree (List.Forall₂ (MadeFrom p p' found found')) (p.resources found).1
        (p'.resources found').1 ∧
      (p.resources found).2 = (p'.resources found').2 := by
  induction hfound with
  | nil => exact ⟨.ok .nil, rfl⟩
  | @cons f f' found found' hf _ ih =>
    obtain ⟨hresources, hwarnings⟩ := ih
    have hlater := hresources.imp fun _ _ hxs => hxs.imp fun _ _ => MadeFrom.cons f f'
    rcases (h.madeAlike hf).cases with ⟨x, x', hx, hx', hmade⟩ | ⟨e, he, he'⟩
    · rw [resources_cons_ok hx, resources_cons_ok hx']
      have hfirst : MadeFrom p p' (f :: found) (f' :: found') x x' :=
        ⟨f, List.mem_cons_self, f', List.mem_cons_self, hmade⟩
      exact ⟨hlater.map fun _ _ hxs => .cons hfirst hxs, hwarnings⟩
    · by_cases hvalid : ∀ i, e ≠ .invalid i
      · rw [resources_cons_skip he hvalid, resources_cons_skip he' hvalid, hf.registration]
        exact ⟨hlater, congrArg (skipWarning f'.1.typeName e :: ·) hwarnings⟩
      · obtain ⟨i, rfl⟩ : ∃ i, e = .invalid i := by simpa using hvalid
        rw [resources_cons_invalid he, resources_cons_invalid he']
        exact ⟨.error _, rfl⟩

/-! ### Extractions -/

theorem rel_mergeSort {α β : Type} {R : α → β → Prop} {le : α → α → Bool} {le' : β → β → Bool}
    {xs : List α} {ys : List β} (h : List.Forall₂ R xs ys)
    (hle : ∀ a b, R a b → ∀ a' b', R a' b' → le a a' = le' b b') :
    List.Forall₂ R (xs.mergeSort le) (ys.mergeSort le') := by
  have hpairs : ∀ z ∈ xs.zip ys, R z.1 z.2 := fun z hz => List.forall₂_zip h hz
  have hxs : xs.mergeSort le = ((xs.zip ys).mergeSort fun z z' => le z.1 z'.1).map Prod.fst := by
    rw [List.map_mergeSort (s := le) fun _ _ _ _ => rfl, List.map_fst_zip h.length_eq.le]
  have hys : ys.mergeSort le' = ((xs.zip ys).mergeSort fun z z' => le z.1 z'.1).map Prod.snd := by
    rw [List.map_mergeSort (s := le') fun z hz z' hz' => hle _ _ (hpairs z hz) _ _ (hpairs z' hz'),
      List.map_snd_zip h.length_eq.ge]
  rw [hxs, hys, List.forall₂_map_left_iff, List.forall₂_map_right_iff, List.forall₂_same]
  exact fun z hz => hpairs z (List.mem_mergeSort.mp hz)

theorem MadeFrom.name_eq {found found' : List Found} {x x' : Resource}
    (h : MadeFrom p p' found found' x x') : x.name = x'.name := by
  obtain ⟨_, _, _, _, hmade⟩ := h
  exact hmade.name

/-- Whether a registration is one of a provider. -/
def Registers (p : Provider) (f : Found) : Prop :=
  ∃ found, registrations p.providerPrefix p.sources = .ok found ∧ f ∈ found

/-- What two providers have in common that read the same from their sources: the registrations, the
services, the warnings, and the resources up to columns that are not legible. -/
structure SameStructure (p p' : Provider) : Prop where
  registrations : Agree (List.Forall₂ fun f f' => f.1 = f'.1 ∧ f.2.path = f'.2.path)
    (registrations p.providerPrefix p.sources) (registrations p'.providerPrefix p'.sources)
  services : services p.sources = services p'.sources
  resources : Agree (List.Forall₂ fun x x' =>
    ∃ f f', p.Registers f ∧ p'.Registers f' ∧ MadeAlike p p' f f' x x') p.extract.1 p'.extract.1
  warnings : p.extract.2 = p'.extract.2

theorem Alike.registrations (h : p.Alike p') : Agree (List.Forall₂ Found.Alike)
    (registrations p.providerPrefix p.sources) (registrations p'.providerPrefix p'.sources) := by
  rw [← h.samePrefix]
  exact registrations_agree _ h.sources

/-- The sorted resources of registrations that are the same. -/
theorem rel_sorted {found found' : List Found} {xs xs' : List Resource}
    (hresources : List.Forall₂ (MadeFrom p p' found found') xs xs') :
    List.Forall₂ (MadeFrom p p' found found') (xs.mergeSort inNameOrder)
      (xs'.mergeSort inNameOrder) :=
  rel_mergeSort hresources fun _ _ hx _ _ hy => by
    rw [inNameOrder, inNameOrder, hx.name_eq, hy.name_eq]

theorem Alike.extract_of_registrations (h : p.Alike p') {found found' : List Found}
    (hsources : p.sources ≠ [])
    (hfound : Schema.registrations p.providerPrefix p.sources = .ok found)
    (hfound' : Schema.registrations p'.providerPrefix p'.sources = .ok found')
    (halike : List.Forall₂ Found.Alike found found') :
    Agree (List.Forall₂ (MadeFrom p p' found found')) p.extract.1 p'.extract.1 ∧
      p.extract.2 = p'.extract.2 := by
  have hsources' : p'.sources ≠ [] := fun hnil =>
    hsources (List.forall₂_nil_right_iff.mp (hnil ▸ h.sources))
  rw [Provider.extract_of_registrations hsources hfound,
    Provider.extract_of_registrations hsources' hfound']
  obtain ⟨hresources, hwarnings⟩ := h.resources halike
  generalize p.resources found = y, p'.resources found' = y' at hresources hwarnings
  obtain ⟨xs, ws⟩ := y
  obtain ⟨xs', ws'⟩ := y'
  obtain rfl : ws = ws' := hwarnings
  dsimp only at hresources
  rcases hresources with ⟨hnil | @⟨x, x', _, _, hx, hxs⟩⟩ | e
  · exact ⟨.error _, rfl⟩
  · exact ⟨.ok (rel_sorted (.cons hx hxs)), rfl⟩
  · exact ⟨.error _, rfl⟩

theorem Alike.sameStructure (h : p.Alike p') : SameStructure p p' := by
  have hextract : Agree (List.Forall₂ fun x x' =>
      ∃ f f', p.Registers f ∧ p'.Registers f' ∧ MadeAlike p p' f f' x x') p.extract.1
        p'.extract.1 ∧ p.extract.2 = p'.extract.2 := by
    by_cases hempty : p.sources = []
    · have hempty' : p'.sources = [] := List.forall₂_nil_left_iff.mp (hempty ▸ h.sources)
      rw [extract, extract, hempty, hempty']
      exact ⟨.error _, rfl⟩
    rcases h.registrations.cases with ⟨found, found', hfound, hfound', halike⟩ | ⟨i, hi, hi'⟩
    · obtain ⟨hresources, hwarnings⟩ := h.extract_of_registrations hempty hfound hfound' halike
      refine ⟨hresources.imp fun _ _ hxs => hxs.imp fun _ _ hmade => ?_, hwarnings⟩
      obtain ⟨f, hf, f', hf', hmade⟩ := hmade
      exact ⟨f, f', ⟨found, hfound, hf⟩, ⟨found', hfound', hf'⟩, hmade⟩
    · have hempty' : p'.sources ≠ [] := fun hnil =>
        hempty (List.forall₂_nil_right_iff.mp (hnil ▸ h.sources))
      rw [extract, extract, List.isEmpty_eq_false_iff.mpr hempty,
        List.isEmpty_eq_false_iff.mpr hempty', hi, hi']
      exact ⟨.error _, rfl⟩
  exact ⟨h.registrations.imp fun _ _ hfound => hfound.imp fun _ _ hf =>
    ⟨hf.registration, hf.source.path⟩, services_eq h.sources, hextract.1, hextract.2⟩

end Provider

end ProviderCatalog.Schema
