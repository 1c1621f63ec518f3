import ProviderCatalog.Proofs.Schema.Extracting
import ProviderCatalog.Proofs.Text.Pieces
import ProviderCatalog.Proofs.Validation.Names

/-!
# Extractions that fail

An extraction fails when there are no sources, when no registration can be resolved, or on a name
that can be no name of a record: one that a string literal spells with a lone surrogate. The names
of structures are parts of a source and can be encoded if the source can, so it is the keys of maps
and the names of attributes that an extraction can fail on.

## Main definitions

* `Provider.attributeNames`: the names of the attributes of a registration.
* `Provider.Encodable`: all names that an extraction meets can be encoded.

## Main results

* `mapRegistrations_isOk`, `listRegistrations_isOk`: registrations that are found.
* `Provider.resource_invalid_iff`: registrations whose resource is invalid.
* `Provider.extract_outcome`: when and how an extraction fails.
* `Provider.extract_escapes`: an extraction can fail on a name.
-/

namespace ProviderCatalog.Schema

open Go (Node Source)

variable {α β ε : Type} {n providerPrefix : Text}

theorem mapM_isOk (f : α → Except ε β) (as : List α) :
    (as.mapM f).isOk = as.all fun a => (f a).isOk := by
  induction as with
  | nil => rfl
  | cons a as ih =>
    rw [List.mapM_cons, List.all_cons, ← ih]
    cases f a with
    | error e => rfl
    | ok b => cases as.mapM f <;> rfl

/-! ### Names -/

theorem dropSuffix_subset (t s : Text) : t.dropSuffix s ⊆ t := by
  rw [Text.dropSuffix, Text.dropSuffix?]
  split
  · exact List.take_subset _ _
  · exact List.Subset.refl _

theorem isUnicode_breakAtCapitals {t : Text} (h : t.isUnicode = true) :
    (breakAtCapitals t).isUnicode = true := by
  refine Text.isUnicode_iff.mpr fun x hx => ?_
  obtain ⟨y, hy, hx⟩ := List.mem_flatMap.mp hx
  have hscalar := Text.isUnicode_iff.mp h y hy
  split at hx
  · rcases List.mem_cons.mp hx with rfl | hx
    · rfl
    · exact List.mem_singleton.mp hx ▸ hscalar
  · exact List.mem_singleton.mp hx ▸ hscalar

/-- The public name of a structure can be encoded if the name of the structure can. -/
theorem isUnicode_resourceName {struct : Text} (hstruct : struct.isUnicode = true)
    (hencoded : providerPrefix.isUnicode = true) :
    (resourceName struct providerPrefix).isUnicode = true := by
  have hstem (suffixes : List Text) :
      ∀ t : Text, t.isUnicode = true → (suffixes.foldl Text.dropSuffix t).isUnicode = true := by
    induction suffixes with
    | nil => exact fun _ h => h
    | cons s suffixes ih =>
      exact fun t h => ih _ (Text.isUnicode_of_subset (dropSuffix_subset t s) h)
  have hsnake : ∀ t : Text, t.isUnicode = true → (snakeCase t).isUnicode = true := by
    intro t h
    cases t with
    | nil => rfl
    | cons x t =>
      obtain ⟨hx, ht⟩ := (Text.isUnicode_append (s := [x])).mp h
      exact Text.isUnicode_lower
        ((Text.isUnicode_append (s := [x])).mpr ⟨hx, isUnicode_breakAtCapitals ht⟩)
  rw [resourceName]
  split
  · rfl
  · exact Text.isUnicode_append.mpr
      ⟨Text.isUnicode_append.mpr ⟨hencoded, rfl⟩, hsnake _ (hstem _ _ hstruct)⟩

/-! ### Registrations that are found -/

theorem ne_nil_of_mem_mapEntries {s : Source} {x : Text × Text} (h : x ∈ mapEntries s) :
    x.1 ≠ [] := by
  obtain ⟨braces, -, hx⟩ := List.mem_flatMap.mp h
  obtain ⟨entry, -, hentry⟩ := List.mem_filterMap.mp hx
  rw [mapElement?] at hentry
  split at hentry
  · cases hentry
    exact List.cons_ne_nil _ _
  · exact nomatch hentry

theorem elementName?_eq_some {element : Node} (h : elementName? providerPrefix element = some n) :
    n ≠ [] ∧ ∃ t : Node, n = resourceName t.text providerPrefix := by
  -- the name is the one of an identifier: the element itself or its type
  have hnamed (t : Node) (h : (if t.kind == .identifier || t.kind == .typeIdentifier then
      if (resourceName t.text providerPrefix).isEmpty then none
        else some (resourceName t.text providerPrefix)
      else none) = some n) : n ≠ [] ∧ ∃ t : Node, n = resourceName t.text providerPrefix := by
    split at h
    · split at h
      · exact nomatch h
      · rename_i hne
        cases h
        exact ⟨by simpa using hne, t, rfl⟩
    · exact nomatch h
  rw [elementName?] at h
  split at h
  · obtain ⟨t, -, h⟩ := Option.bind_eq_some_iff.mp h
    exact hnamed t h
  · exact hnamed element h

theorem mem_listEntries {s : Source} {x : Text × ResourceKind}
    (h : x ∈ listEntries providerPrefix s) :
    x.1 ≠ [] ∧ ∃ t : Node, x.1 = resourceName t.text providerPrefix := by
  obtain ⟨d, -, hx⟩ := List.mem_flatMap.mp h
  split at hx
  · obtain ⟨name, hname, rfl⟩ := List.mem_map.mp hx
    obtain ⟨r, -, hname⟩ := List.mem_flatMap.mp hname
    split at hname
    · obtain ⟨element, -, helement⟩ := List.mem_filterMap.mp hname
      exact elementName?_eq_some helement
    · exact nomatch hname
  · exact nomatch hx

/-- Registrations are made of the entries of sources if the names of the entries can be encoded. -/
theorem made_isOk {entries : Source → List α} {name : α → Text}
    (make : α → Except Invalid Registration)
    (hmake : ∀ s, ∀ x ∈ entries s, (make x).isOk = (name x).isUnicode) (sources : List Source) :
    (((sources.flatMap fun s => (entries s).map (·, s)).mapM fun x => do
      return (← make x.1, x.2)) : Except Invalid (List Found)).isOk =
        sources.all fun s => (entries s).all fun x => (name x).isUnicode := by
  rw [mapM_isOk, List.all_flatMap]
  refine List.all_congr rfl fun s => ?_
  rw [List.all_map, Bool.eq_iff_iff, List.all_eq_true, List.all_eq_true]
  refine forall₂_congr fun x hx => Bool.eq_iff_iff.mp (Eq.trans ?_ (hmake s x hx))
  rw [Function.comp_apply]
  cases make x <;> rfl

/-- Registrations are found in maps if their keys can be encoded. -/
theorem mapRegistrations_isOk (sources : List Source) :
    (mapRegistrations sources).isOk = sources.all fun s => (mapEntries s).all (·.1.isUnicode) :=
  made_isOk (fun x : Text × Text => Registration.make x.1 (some x.2) (.ofBuilder x.2))
    (fun _ _ hx => Registration.make_isOk (ne_nil_of_mem_mapEntries hx) _ _) sources

/-- Registrations are found in lists if the names of the structures can be encoded. -/
theorem listRegistrations_isOk_eq (providerPrefix : Text) (sources : List Source) :
    (listRegistrations providerPrefix sources).isOk =
      sources.all fun s => (listEntries providerPrefix s).all (·.1.isUnicode) :=
  made_isOk (fun x : Text × ResourceKind => Registration.make x.1 none x.2)
    (fun _ _ hx => Registration.make_isOk (mem_listEntries hx).1 _ _) sources

/-- Registrations in lists have names that can be encoded. -/
theorem listRegistrations_isOk (hencoded : providerPrefix.isUnicode = true)
    (sources : List Source) : (listRegistrations providerPrefix sources).isOk = true := by
  rw [listRegistrations_isOk_eq]
  refine List.all_eq_true.mpr fun s _ => List.all_eq_true.mpr fun x hx => ?_
  obtain ⟨-, t, hname⟩ := mem_listEntries hx
  rw [hname]
  exact isUnicode_resourceName (Text.isUnicode_ofChars _) hencoded

/-! ### Resources that are invalid -/

namespace Provider

variable {p : Provider} {f : Found} {found : List Found}

/-- The names of the attributes that a builder gives a resource. -/
def schemaNames (p : Provider) (b : Builder) : List Text :=
  match (b.field? "Schema").bind (p.schemaBody? · b.source) with
  | none => []
  | some braces => (braces.keyedElements.filterMap schemaElement?).map (·.1)

/-- The names of the attributes of a registration that can be resolved. -/
def attributeNames (p : Provider) (f : Found) : List Text :=
  match f.1.builder with
  | none => []
  | some name =>
    match p.builder name f.2 with
    | .ok b => p.schemaNames b
    | .error _ => []

theorem schemaElement?_ne_nil {entry : Node × Node} {x : Text × Node}
    (h : schemaElement? entry = some x) : x.1 ≠ [] := by
  have hnamed (name : Text) (h : (if name.isEmpty then none
      else entry.2.literalBody?.map (name, ·)) = some x) : x.1 ≠ [] := by
    split at h
    · exact nomatch h
    · rename_i hne
      obtain ⟨braces, -, rfl⟩ := Option.map_eq_some_iff.mp h
      simpa using hne
  rw [schemaElement?] at h
  split at h
  · exact hnamed _ h
  · exact hnamed _ h

theorem builderAttributes_isOk (p : Provider) (b : Builder) :
    (p.builderAttributes b).isOk = (p.schemaNames b).all (·.isUnicode) := by
  rw [builderAttributes, schemaNames]
  cases b.field? "Schema" with
  | none => rfl
  | some v =>
    rw [Option.bind_some]
    dsimp only
    rw [attributes]
    cases p.schemaBody? v b.source with
    | none => rfl
    | some braces =>
      rw [mapM_isOk, List.all_map, Bool.eq_iff_iff, List.all_eq_true, List.all_eq_true]
      refine forall₂_congr fun x hx => ?_
      obtain ⟨entry, -, hentry⟩ := List.mem_filterMap.mp hx
      exact Bool.eq_iff_iff.mp (Attribute.ofLiteral_isOk (schemaElement?_ne_nil hentry) x.2)

theorem builder_error {name : Text} {s : Source} {e : ExtractionFailure}
    (h : p.builder name s = .error e) : ∀ i, e ≠ .invalid i := by
  rw [builder] at h
  split at h
  · cases h
    intro i hi
    cases hi
  · split at h
    · cases h
      intro i hi
      cases hi
    · cases h

/-- The resource of a registration is invalid if the name of one of its attributes cannot be
encoded. -/
theorem resource_invalid_iff :
    (∃ i, p.resource f.1 f.2 = .error (.invalid i)) ↔
      ∃ n ∈ p.attributeNames f, n.isUnicode = false := by
  rw [resource, attributeNames]
  cases f.1.builder with
  | none => simp
  | some name =>
    dsimp only
    cases hbuilder : p.builder name f.2 with
    | error e =>
      have hvalid := builder_error hbuilder
      simp [bind, Except.bind, hvalid]
    | ok b =>
      have hnames := p.builderAttributes_isOk b
      simp only [bind, Except.bind]
      rcases p.builtResource_cases f.1 b with ⟨i, has, hbuilt⟩ | ⟨as, x, has, hbuilt, -⟩
      · rw [has] at hnames
        rw [hbuilt]
        simpa [Except.mapError, Except.isOk, Except.toBool] using hnames
      · rw [has] at hnames
        rw [hbuilt]
        simpa [Except.mapError, Except.isOk, Except.toBool] using hnames

/-- What makes the resources of registrations fail is an invalid resource. -/
theorem resources_cases (p : Provider) (found : List Found) :
    (∃ xs, (p.resources found).1 = .ok xs ∧
        ∀ f ∈ found, ∀ n ∈ p.attributeNames f, n.isUnicode = true) ∨
      ∃ i, (p.resources found).1 = .error (.invalid i) ∧
        ∃ f ∈ found, ∃ n ∈ p.attributeNames f, n.isUnicode = false := by
  induction found with
  | nil => exact .inl ⟨[], rfl, nofun⟩
  | cons f found ih =>
    by_cases hinvalid : ∃ n ∈ p.attributeNames f, n.isUnicode = false
    · obtain ⟨i, hi⟩ := resource_invalid_iff.mpr hinvalid
      rw [resources_cons_invalid hi]
      exact .inr ⟨i, rfl, f, List.mem_cons_self, hinvalid⟩
    · have hnames : ∀ n ∈ p.attributeNames f, n.isUnicode = true := by
        simpa using hinvalid
      rcases p.resource_cases f with ⟨e, -, hfails, hvalid⟩ | ⟨-, ⟨x, hx, -⟩ | hi⟩
      · rw [resources_cons_skip hfails hvalid]
        exact ih.imp (fun ⟨xs, hxs, hall⟩ => ⟨xs, hxs, List.forall_mem_cons.mpr ⟨hnames, hall⟩⟩)
          fun ⟨i, hi, g, hg, hn⟩ => ⟨i, hi, g, List.mem_cons_of_mem _ hg, hn⟩
      · rw [resources_cons_ok hx]
        refine ih.imp
          (fun ⟨xs, hxs, hall⟩ => ⟨x :: xs, ?_, List.forall_mem_cons.mpr ⟨hnames, hall⟩⟩)
          fun ⟨i, hi, g, hg, hn⟩ => ⟨i, ?_, g, List.mem_cons_of_mem _ hg, hn⟩
        · rw [hxs]
          rfl
        · rw [hi]
          rfl
      · exact absurd (resource_invalid_iff.mp hi) hinvalid

/-- The names that an extraction meets can be encoded: the keys of maps, and the names of the
attributes of the registrations that can be resolved. -/
structure Encodable (p : Provider) : Prop where
  keys : ∀ s ∈ p.sources, ∀ x ∈ mapEntries s, x.1.isUnicode = true
  attributes : ∀ found, registrations p.providerPrefix p.sources = .ok found →
    ∀ f ∈ found, ∀ n ∈ p.attributeNames f, n.isUnicode = true

/-- Registrations are found if the keys of maps can be encoded. -/
theorem registrations_isOk (hencoded : p.providerPrefix.isUnicode = true) :
    (registrations p.providerPrefix p.sources).isOk = true ↔
      ∀ s ∈ p.sources, ∀ x ∈ mapEntries s, x.1.isUnicode = true := by
  have hmaps := mapRegistrations_isOk p.sources
  have hlists := listRegistrations_isOk hencoded p.sources
  have hall : (p.sources.all fun s => (mapEntries s).all (·.1.isUnicode)) = true ↔
      ∀ s ∈ p.sources, ∀ x ∈ mapEntries s, x.1.isUnicode = true := by
    simp only [List.all_eq_true]
  rw [← hall, ← hmaps, registrations]
  cases mapRegistrations p.sources with
  | error i => exact Iff.rfl
  | ok inMaps =>
    cases hok : listRegistrations p.providerPrefix p.sources with
    | error i =>
      rw [hok] at hlists
      exact nomatch hlists
    | ok inLists => exact Iff.rfl

end Provider

/-! ### Extractions -/

theorem ofFile_ne_notUnicode {f : RepositoryFile} (h : f.content.isUnicode = true) :
    Source.ofFile f ≠ .error .notUnicode := by
  obtain ⟨cs, hcs⟩ := Option.isSome_iff_exists.mp ((Text.isSome_toChars? f.content).trans h)
  rw [Source.ofFile, Source.ofContent, hcs]
  dsimp only
  split <;> exact nofun

/-- Files that can be encoded are parsed, or warned of. -/
theorem parseFiles_isOk {files : List RepositoryFile}
    (h : ∀ f ∈ files, f.content.isUnicode = true) : ∃ parsed, parseFiles files = .ok parsed := by
  induction files with
  | nil => exact ⟨_, rfl⟩
  | cons f files ih =>
    obtain ⟨hf, hfiles⟩ := List.forall_mem_cons.mp h
    obtain ⟨parsed, hparsed⟩ := ih hfiles
    rw [parseFiles]
    split
    · exact ⟨parsed, hparsed⟩
    · split
      · exact ⟨_, by rw [hparsed]; rfl⟩
      · exact ⟨_, by rw [hparsed]; rfl⟩
      · rename_i hfile
        exact absurd hfile (ofFile_ne_notUnicode hf)

namespace Provider

variable {p : Provider} {found : List Found}

/-- An extraction fails on a name that cannot be encoded. -/
theorem extract_of_not_encodable (hencoded : p.providerPrefix.isUnicode = true)
    (hsources : p.sources ≠ []) (h : ¬p.Encodable) : ∃ i, p.extract.1 = .error (.invalid i) := by
  cases hfound : registrations p.providerPrefix p.sources with
  | error i => exact ⟨i, by rw [extract, List.isEmpty_eq_false_iff.mpr hsources, hfound]; rfl⟩
  | ok found =>
    rcases p.resources_cases found with ⟨-, -, hnames⟩ | ⟨i, hi, -⟩
    · refine absurd ⟨(registrations_isOk hencoded).mp (hfound ▸ rfl), fun found' hfound' => ?_⟩ h
      exact Except.ok.inj (hfound.symm.trans hfound') ▸ hnames
    · have hresources : p.resources found = (.error (.invalid i), (p.resources found).2) :=
        Prod.ext hi rfl
      rw [extract_of_registrations hsources hfound, hresources]
      exact ⟨i, rfl⟩

/-- If all names can be encoded, each registration that can be resolved has its resource. -/
theorem extract_of_encodable (hsources : p.sources ≠ [])
    (hfound : registrations p.providerPrefix p.sources = .ok found) (h : p.Encodable) :
    ((∀ f ∈ found, p.unresolved? f ≠ none) → p.extract.1 = .error .nothingFound) ∧
      ∀ f ∈ found, p.unresolved? f = none →
        ∃ xs, p.extract.1 = .ok xs ∧ ∃ x ∈ xs, (x.name, x.kind) = f.1.key := by
  rcases p.resources_cases found with ⟨xs, hxs, -⟩ | ⟨i, -, f, hf, n, hn, hinvalid⟩
  · have hresources : p.resources found = (.ok xs, (p.resources found).2) := Prod.ext hxs rfl
    obtain ⟨hbuilt, -⟩ := resources_ok hresources
    rw [extract_of_registrations hsources hfound, hresources]
    refine ⟨fun hall => ?_, fun f hf hresolved => ?_⟩
    · have hnone : (found.filter fun f => (p.unresolved? f).isNone) = [] :=
        List.filter_eq_nil_iff.mpr fun f hf => by simpa using hall f hf
      rw [hnone, List.forall₂_nil_left_iff] at hbuilt
      rw [hbuilt]
    · have hmem : f.1.key ∈ xs.map fun x => (x.name, x.kind) :=
        map_key_eq hbuilt ▸ List.mem_map_of_mem
          (List.mem_filter.mpr ⟨hf, by rw [hresolved]; rfl⟩)
      obtain ⟨x, hx, hkey⟩ := List.mem_map.mp hmem
      cases xs with
      | nil => exact nomatch hx
      | cons y ys =>
        exact ⟨_, rfl, x, (List.mergeSort_perm _ _).mem_iff.mpr hx, hkey⟩
  · rw [h.attributes found hfound f hf n hn] at hinvalid
    exact nomatch hinvalid

end Provider

/-- The outcome of an extraction from files that can be encoded. It fails without sources, on a name
that cannot be encoded, and if no registration can be resolved, and in no other case. Otherwise each
registration that can be resolved has its resource. -/
theorem Provider.extract_outcome {files : List RepositoryFile}
    (hencoded : providerPrefix.isUnicode = true)
    (hfiles : ∀ f ∈ files, f.content.isUnicode = true) :
    ∃ p ws, Provider.ofFiles providerPrefix files = .ok (p, ws) ∧
      (p.sources = [] → p.extract.1 = .error .noSources) ∧
      (p.sources ≠ [] → ¬p.Encodable → ∃ i, p.extract.1 = .error (.invalid i)) ∧
      (p.sources ≠ [] → p.Encodable →
        ∃ found, registrations p.providerPrefix p.sources = .ok found ∧
          ((∀ f ∈ found, p.unresolved? f ≠ none) → p.extract.1 = .error .nothingFound) ∧
          ∀ f ∈ found, p.unresolved? f = none →
            ∃ xs, p.extract.1 = .ok xs ∧ ∃ x ∈ xs, (x.name, x.kind) = f.1.key) := by
  obtain ⟨⟨ss, ws⟩, hparsed⟩ := parseFiles_isOk hfiles
  refine ⟨⟨ss, providerPrefix⟩, ws, by rw [ofFiles, hparsed]; rfl, fun h => ?_,
    extract_of_not_encodable hencoded, fun hsources h => ?_⟩
  · rw [extract, h]
    rfl
  · have hisOk := (registrations_isOk hencoded).mpr h.keys
    cases hfound : registrations providerPrefix ss with
    | error i =>
      rw [hfound] at hisOk
      cases hisOk
    | ok found => exact ⟨found, rfl, extract_of_encodable hsources hfound h⟩

/-- Whether an extraction from files fails on a name. -/
def failsOnName (providerPrefix : Text) (files : List RepositoryFile) : Bool :=
  match Provider.ofFiles providerPrefix files with
  | .error _ => false
  | .ok (p, _) =>
    match p.extract.1 with
    | .error (.invalid _) => true
    | _ => false

theorem extract_invalid_of_failsOnName {files : List RepositoryFile} {ws : List Text}
    (h : failsOnName providerPrefix files = true)
    (hp : Provider.ofFiles providerPrefix files = .ok (p, ws)) :
    ∃ i, p.extract.1 = .error (.invalid i) := by
  rw [failsOnName, hp] at h
  dsimp only at h
  split at h
  · rename_i i hi
    exact ⟨i, hi⟩
  · exact nomatch h

/-- Two resources, of which one has an attribute under the escape of a lone surrogate. -/
def surrogateAttribute : RepositoryFile :=
  ⟨1, "a.go", "a.go", "go",
    "package p\n" ++
      "var all = map[string]schema.Resource\x7b\"p_good\": good(), \"p_bad\": bad()\x7d\n" ++
      "func good() R \x7b return R\x7b\x7d \x7d\nfunc bad() R \x7b return R\x7b" ++
      "Schema: map[string]S\x7b\"\\ud800\": S\x7b\x7d\x7d\x7d \x7d\n", 1⟩

set_option maxRecDepth 100000 in
private theorem surrogateAttribute_fails :
    surrogateAttribute.content.isUnicode = true ∧ failsOnName "p" [surrogateAttribute] = true := by
  decide +kernel

/-- An extraction fails on the name of an attribute that cannot be encoded. -/
theorem Provider.extract_outcome_of_attribute :
    surrogateAttribute.content.isUnicode = true ∧
      ∃ p ws, Provider.ofFiles "p" [surrogateAttribute] = .ok (p, ws) ∧ ¬p.Encodable ∧
        ∃ i, p.extract.1 = .error (.invalid i) := by
  obtain ⟨hcontent, hfails⟩ := surrogateAttribute_fails
  obtain ⟨p, ws, hp, hempty, -, hencodable⟩ := Provider.extract_outcome
    (show Text.isUnicode "p" = true by decide)
    (List.forall_mem_singleton.mpr hcontent : ∀ f ∈ [surrogateAttribute], _)
  obtain ⟨i, hi⟩ := extract_invalid_of_failsOnName hfails hp
  have hsources : p.sources ≠ [] := fun h => nomatch (hempty h).symm.trans hi
  refine ⟨hcontent, p, ws, hp, fun h => ?_, i, hi⟩
  obtain ⟨found, -, hunresolved, hresolved⟩ := hencodable hsources h
  by_cases hall : ∀ f ∈ found, p.unresolved? f ≠ none
  · exact nomatch (hunresolved hall).symm.trans hi
  · obtain ⟨f, hf, hnone⟩ : ∃ f ∈ found, p.unresolved? f = none := by simpa using hall
    obtain ⟨xs, hxs, -⟩ := hresolved f hf hnone
    exact nomatch hxs.symm.trans hi

/-- Two resources, of which one stands under the escape of a lone surrogate. -/
def surrogateKey : RepositoryFile :=
  ⟨1, "a.go", "a.go", "go",
    "package p\n" ++
      "var all = map[string]schema.Resource\x7b\"p_good\": good(), \"p_\\ud800\": good()\x7d\n" ++
      "func good() R \x7b return R\x7b\x7d \x7d\n", 1⟩

set_option maxRecDepth 100000 in
private theorem surrogateKey_fails :
    surrogateKey.content.isUnicode = true ∧ failsOnName "p" [surrogateKey] = true := by
  decide +kernel

/-- From files that can be encoded, an extraction can fail for other reasons than that there are no
sources or that no registration can be resolved. -/
theorem Provider.extract_escapes :
    ¬∀ (providerPrefix : Text) (files : List RepositoryFile) (p : Provider) (ws : List Text)
      (e : ExtractionFailure), (∀ f ∈ files, f.content.isUnicode = true) →
        Provider.ofFiles providerPrefix files = .ok (p, ws) → p.extract.1 = .error e →
          e = .noSources ∨ e = .nothingFound := by
  intro h
  obtain ⟨hcontent, hfails⟩ := surrogateKey_fails
  have hfiles : ∀ f ∈ [surrogateKey], f.content.isUnicode = true :=
    List.forall_mem_singleton.mpr hcontent
  obtain ⟨⟨ss, ws⟩, hparsed⟩ := parseFiles_isOk hfiles
  have hp : Provider.ofFiles "p" [surrogateKey] = .ok (⟨ss, "p"⟩, ws) := by
    rw [Provider.ofFiles, hparsed]
    rfl
  obtain ⟨i, hi⟩ := extract_invalid_of_failsOnName hfails hp
  exact (h "p" _ _ ws _ hfiles hp hi).elim nofun nofun

end ProviderCatalog.Schema
