import ProviderCatalog.Proofs.Schema.Registering

/-!
# Files behind other files

Files that are appended to others add sources behind those of the others, and nothing in front. The
registrations in maps of the earlier files stay where they are. A function that the earlier files
declare is found where it was, so a registration keeps its resource if its builder, and the function
that the builder calls for its schema, are among them.

## Main definitions

* `Provider.declares`: a function is declared in a source of a provider.
* `Provider.Builder.schemaFunction?`: the function that a builder calls for its schema.
* `Provider.isSettled`: nothing of a registration is left for later files to declare.
* `Provider.IsExtension`: a provider with further sources behind those of another one.

## Main results

* `Provider.IsExtension.mapsPrefix`: the registrations in maps.
* `Provider.IsExtension.resource_eq`: the resource of a registration.
* `Provider.extract_extends`: extractions with and without later files.
-/

namespace ProviderCatalog.Schema

open Go (Node Source)

namespace Provider

variable {p q : Provider} {f : Found} {name : Text} {s : Source}

/-- Whether a function is declared in a source of a provider. -/
def declares (p : Provider) (name : Text) : Bool :=
  p.sources.any fun s => (s.function? name).isSome

/-- The function that a builder calls for its schema, if the schema is no literal. -/
def Builder.schemaFunction? (b : Builder) : Option Text :=
  (b.field? "Schema").bind fun v => if v.literalBody?.isSome then none else v.callName?

/-- Whether the builder of a registration, and the function that it calls for its schema if it calls
one, are declared in sources of a provider. -/
def isSettled (p : Provider) (f : Found) : Bool :=
  f.1.builder.any fun name =>
    p.declares name && ((p.builder name f.2).toOption.bind Builder.schemaFunction?).all p.declares

/-- A provider has the sources of another one and further ones behind them. -/
structure IsExtension (p q : Provider) : Prop where
  samePrefix : q.providerPrefix = p.providerPrefix
  sources : p.sources <+: q.sources

theorem isExtension_of_ofFiles {providerPrefix : Text} {files later : List RepositoryFile}
    {ws ws' : List Text} (hp : ofFiles providerPrefix files = .ok (p, ws))
    (hq : ofFiles providerPrefix (files ++ later) = .ok (q, ws')) : p.IsExtension q := by
  rw [ofFiles_eq_ok hp, ofFiles_eq_ok hq, List.filterMap_append]
  exact ⟨rfl, List.prefix_append _ _⟩

/-! ### Registrations -/

theorem builder_inMaps {sources : List Source} (h : f ∈ discoveredInMaps sources) :
    f.1.builder.isSome = true := by
  rw [discoveredInMaps_eq] at h
  obtain ⟨s, -, h⟩ := List.mem_flatMap.mp h
  obtain ⟨entry, -, rfl⟩ := List.mem_map.mp h
  rfl

theorem builder_inLists {providerPrefix : Text} {sources : List Source}
    (h : f ∈ discoveredInLists providerPrefix sources) : f.1.builder.isSome = false := by
  rw [discoveredInLists_eq] at h
  obtain ⟨s, -, h⟩ := List.mem_flatMap.mp h
  obtain ⟨entry, -, rfl⟩ := List.mem_map.mp h
  rfl

/-- The registrations with builders are the first ones in maps. -/
theorem filter_builder_firstOfKeys (providerPrefix : Text) (sources : List Source) :
    ((firstOfKeys [] (discovered providerPrefix sources)).filter fun f => f.1.builder.isSome) =
      firstOfKeys [] (discoveredInMaps sources) := by
  rw [discovered, firstOfKeys_append, List.filter_append]
  have hmaps : (firstOfKeys [] (discoveredInMaps sources)).filter (fun f => f.1.builder.isSome) =
      firstOfKeys [] (discoveredInMaps sources) :=
    List.filter_eq_self.mpr fun f hf => builder_inMaps ((firstOfKeys_sublist _ _).subset hf)
  rw [hmaps, List.append_right_eq_self, List.filter_eq_nil_iff]
  intro f hf
  have hlist := (firstOfKeys_sublist _ _).subset (List.mem_filter.mp hf).1
  simp [builder_inLists hlist]

namespace IsExtension

variable (h : p.IsExtension q)

include h

/-- The registrations in maps stay in front. -/
theorem mapsPrefix {found found' : List Found}
    (hfound : registrations p.providerPrefix p.sources = .ok found)
    (hfound' : registrations q.providerPrefix q.sources = .ok found') :
    (found.filter fun f => f.1.builder.isSome) <+: found' := by
  obtain ⟨more, hmore⟩ := h.sources
  rw [registrations_eq_ok hfound, filter_builder_firstOfKeys, registrations_eq_ok hfound',
    discovered, ← hmore, discoveredInMaps_append, List.append_assoc, firstOfKeys_append]
  exact List.prefix_append _ _

/-! ### Resources -/

/-- A function that is declared is found where it was. -/
theorem function?_eq (hname : p.declares name = true) (s : Source) :
    q.function? name s = p.function? name s := by
  obtain ⟨more, hmore⟩ := h.sources
  rw [function?, function?]
  split
  · rfl
  · obtain ⟨t, ht, hfunction⟩ := List.any_eq_true.mp hname
    have hsome : (p.sources.findSome? fun t => (t.function? name).map (t, ·)).isSome = true :=
      List.findSome?_isSome_iff.mpr ⟨t, ht, by rwa [Option.isSome_map]⟩
    rw [← hmore, List.findSome?_append, Option.or_of_isSome hsome]

theorem schemaBody?_eq {v : Node} (hv : v.literalBody? = none → v.callName?.all p.declares = true)
    (s : Source) : q.schemaBody? v s = p.schemaBody? v s := by
  rw [schemaBody?, schemaBody?]
  cases hbody : v.literalBody? with
  | some braces => rfl
  | none =>
    cases hname : v.callName? with
    | none => rfl
    | some name =>
      have hdeclared : p.declares name = true := by simpa [hname] using hv hbody
      dsimp only [Option.bind_eq_bind, Option.bind_some]
      rw [h.function?_eq hdeclared]

theorem builderAttributes_eq {b : Builder} (hb : b.schemaFunction?.all p.declares = true) :
    q.builderAttributes b = p.builderAttributes b := by
  rw [Builder.schemaFunction?] at hb
  rw [builderAttributes, builderAttributes]
  cases hschema : b.field? "Schema" with
  | none => rfl
  | some v =>
    dsimp only
    rw [attributes, attributes, h.schemaBody?_eq fun hnone => by simpa [hschema, hnone] using hb]

/-- A registration of which nothing is left to declare keeps its resource. -/
theorem resource_eq (hf : p.isSettled f = true) : q.resource f.1 f.2 = p.resource f.1 f.2 := by
  obtain ⟨name, hname, hsettled⟩ := (Option.any_eq_true _ _).mp hf
  obtain ⟨hdeclared, hschema⟩ := Bool.and_eq_true_iff.mp hsettled
  have hbuilder : q.builder name f.2 = p.builder name f.2 := by
    rw [builder, builder, h.function?_eq hdeclared]
  rw [resource, resource, hname]
  dsimp only
  rw [hbuilder]
  cases hb : p.builder name f.2 with
  | error e => rfl
  | ok b =>
    have hb' : b.schemaFunction?.all p.declares = true := by
      simpa [hb, Except.toOption] using hschema
    rw [except_ok_bind, except_ok_bind, builtResource_eq, builtResource_eq, h.samePrefix,
      h.builderAttributes_eq hb']

end IsExtension

/-! ### Extractions -/

variable {files later : List RepositoryFile} {providerPrefix : Text} {parsed parsed' : List Text}
  {xs ys : List Resource} {ws ws' : List Text}

/-- A resource has the name and the kind of its registration. -/
theorem key_eq_of_resource {x : Resource} (h : p.resource f.1 f.2 = .ok x) :
    (x.name, x.kind) = f.1.key := by
  rcases p.resource_cases f with ⟨e, -, he, -⟩ | ⟨-, ⟨y, hy, hkey⟩ | ⟨i, hi⟩⟩
  · exact nomatch h.symm.trans he
  · exact Except.ok.inj (h.symm.trans hy) ▸ hkey
  · exact nomatch h.symm.trans hi

/-- Of the resources, that of a registration has its name and kind. -/
theorem mem_extract_key_iff {found : List Found} {x : Resource} (h : p.extract = (.ok xs, ws))
    (hfound : registrations p.providerPrefix p.sources = .ok found) (hf : f ∈ found)
    (hx : (x.name, x.kind) = f.1.key) : x ∈ xs ↔ p.resource f.1 f.2 = .ok x := by
  rw [mem_extract_iff h hfound]
  constructor
  · rintro ⟨f', hf', hresource⟩
    have hnodup : (found.map (·.1.key)).Nodup :=
      registrations_eq_ok hfound ▸ nodup_firstOfKeys [] _
    have hsame := (key_eq_of_resource hresource).symm.trans hx
    exact List.inj_on_of_nodup_map hnodup hf' hf hsame ▸ hresource
  · exact fun hresource => ⟨f, hf, hresource⟩

/-- With further files behind others, the registrations in maps of the others stay in front, with
their builders and kinds. Such a registration keeps its resource if its builder, and the function
that the builder calls for its schema, are declared in the others. -/
theorem extract_extends (hp : ofFiles providerPrefix files = .ok (p, parsed))
    (hq : ofFiles providerPrefix (files ++ later) = .ok (q, parsed'))
    (h : p.extract = (.ok xs, ws)) (h' : q.extract = (.ok ys, ws')) :
    ∃ found found', registrations p.providerPrefix p.sources = .ok found ∧
      registrations q.providerPrefix q.sources = .ok found' ∧
      (found.filter fun f => f.1.builder.isSome) <+: found' ∧
      ∀ f ∈ found, p.isSettled f = true →
        p.resource f.1 f.2 = q.resource f.1 f.2 ∧
          ∀ x : Resource, (x.name, x.kind) = f.1.key → (x ∈ xs ↔ x ∈ ys) := by
  have hextension := isExtension_of_ofFiles hp hq
  obtain ⟨found, -, hfound, -⟩ := extract_ok h
  obtain ⟨found', -, hfound', -⟩ := extract_ok h'
  have hstay := hextension.mapsPrefix hfound hfound'
  refine ⟨found, found', hfound, hfound', hstay, fun f hf hsettled => ?_⟩
  have hbuilder : f.1.builder.isSome = true := by
    obtain ⟨name, hname, -⟩ := (Option.any_eq_true _ _).mp hsettled
    rw [hname]
    rfl
  have hf' : f ∈ found' := hstay.subset (List.mem_filter.mpr ⟨hf, hbuilder⟩)
  have hresource := hextension.resource_eq hsettled
  refine ⟨hresource.symm, fun x hx => ?_⟩
  rw [mem_extract_key_iff h hfound hf hx, mem_extract_key_iff h' hfound' hf' hx, hresource]

/-- Whether nothing is left to declare of the registrations of files. -/
def allSettled (providerPrefix : Text) (files : List RepositoryFile) : Bool :=
  match ofFiles providerPrefix files with
  | .ok (p, _) =>
    match registrations p.providerPrefix p.sources with
    | .ok found => found.all p.isSettled
    | .error _ => false
  | .error _ => false

theorem isSettled_of_allSettled {found : List Found}
    (h : allSettled providerPrefix files = true)
    (hp : ofFiles providerPrefix files = .ok (p, parsed))
    (hfound : registrations p.providerPrefix p.sources = .ok found) (hf : f ∈ found) :
    p.isSettled f = true := by
  rw [allSettled, hp] at h
  dsimp only at h
  rw [hfound] at h
  exact List.all_eq_true.mp h f hf

/-- A map in one file, and in the next its builder and the function that this calls. -/
def widgetFiles : List RepositoryFile := [
  ⟨1, "a.go", "a.go", "go",
    "package p\n\nvar all = map[string]schema.Resource\x7b\"p_x\": widget()\x7d\n", 1⟩,
  ⟨1, "b.go", "b.go", "go",
    "package p\n\nfunc widget() R \x7b\n\treturn R\x7bSchema: fields()\x7d\n\x7d\n\n" ++
      "func fields() M \x7b\n\treturn M\x7b\"one\": S\x7bRequired: true\x7d\x7d\n\x7d\n", 1⟩]

/-- A file that declares all of it once more, and differently. -/
def clashingFile : RepositoryFile :=
  ⟨1, "c.go", "c.go", "go",
    "package p\n\nvar all = map[string]schema.Resource\x7b\"p_x\": other(), \"p_y\": widget()" ++
      "\x7d\nfunc widget() R \x7b\n\treturn R\x7b\x7d\n\x7d\n\n" ++
      "func fields() M \x7b\n\treturn M\x7b\"two\": S\x7b\x7d\x7d\n\x7d\n", 1⟩

/-- What tells resources apart here: the name, the file and the names of the attributes. -/
structure Outline where
  name : Text
  filePath : Option Text
  attributes : List Text
deriving DecidableEq

/-- The outlines of the resources of files, if they can be made. -/
def outlines? (files : List RepositoryFile) : Option (List Outline) :=
  (resources? "p" files).map (·.map fun x => ⟨x.name, x.filePath, x.attributes.map (·.name)⟩)

set_option maxRecDepth 100000 in
private theorem widgetFiles_extended :
    allSettled "p" widgetFiles = true ∧
      outlines? widgetFiles = some [⟨"p_x", some ("b.go" : Text), [("one" : Text)]⟩] ∧
      outlines? (widgetFiles ++ [clashingFile]) = some [
        ⟨"p_x", some ("b.go" : Text), [("one" : Text)]⟩, ⟨"p_y", some ("c.go" : Text), []⟩] := by
  decide +kernel

/-- The resource of the earlier files stays as it is. -/
theorem extract_extends_of_clash :
    ∃ p q parsed parsed' xs ys ws ws', ofFiles "p" widgetFiles = .ok (p, parsed) ∧
      ofFiles "p" (widgetFiles ++ [clashingFile]) = .ok (q, parsed') ∧ p.extract = (.ok xs, ws) ∧
      q.extract = (.ok ys, ws') ∧ ∃ x ∈ xs, x ∈ ys ∧ x.name = ("p_x" : Text) := by
  obtain ⟨hsettled, hearlier, hall⟩ := widgetFiles_extended
  obtain ⟨built, hbuilt, hone⟩ := Option.map_eq_some_iff.mp hearlier
  obtain ⟨built', hbuilt', htwo⟩ := Option.map_eq_some_iff.mp hall
  obtain ⟨x, rfl, hx⟩ := List.map_eq_singleton_iff.mp hone
  have hne' : built' ≠ [] := fun hnil => by
    rw [hnil] at htwo
    exact nomatch htwo
  obtain ⟨p, parsed, ws, hp, h⟩ := extract_of_resources? hbuilt (List.cons_ne_nil x [])
  obtain ⟨q, parsed', ws', hq, h'⟩ := extract_of_resources? hbuilt' hne'
  obtain ⟨found, -, hfound, -, -, hkept⟩ := extract_extends hp hq h h'
  have hmem : x ∈ [x].mergeSort inNameOrder :=
    (List.mergeSort_perm [x] inNameOrder).mem_iff.mpr List.mem_cons_self
  obtain ⟨f, hf, hresource⟩ := (mem_extract_iff h hfound).mp hmem
  obtain ⟨-, hsame⟩ := hkept f hf (isSettled_of_allSettled hsettled hp hfound hf)
  exact ⟨p, q, parsed, parsed', _, _, ws, ws', hp, hq, h, h', x, hmem,
    (hsame x (key_eq_of_resource hresource)).mp hmem, congrArg Outline.name hx⟩

end Provider

end ProviderCatalog.Schema
