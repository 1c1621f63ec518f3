import ProviderCatalog.Proofs.Computation
import ProviderCatalog.Proofs.Text.Pieces
import ProviderCatalog.Schema.Extraction
import Mathlib.Data.List.Forall2
import Mathlib.Data.List.Nodup

/-!
# Resources and registrations

Registrations are told apart by their names and kinds. An extraction that comes to its end makes one
resource of each registration that can be resolved, with the name and kind of the registration, and
tells one warning for each of the others. The resources are sorted by name; those with one name keep
the order of their registrations.

## Main definitions

* `Provider.unresolved?`: why a registration has no resource.

## Main results

* `mem_keys_firstOfKeys`, `nodup_firstOfKeys`: each name and kind is registered once.
* `Provider.resource_cases`: what becomes of one registration.
* `Provider.resources_ok`: what becomes of all of them.
* `Provider.extract_corresponds`: the resources of an extraction and its registrations.
-/

namespace ProviderCatalog.Schema

open Go (Node Source)

/-! ### Each name and kind once -/

section Keys

variable {seen : List (Text × ResourceKind)} {fs : List Found} {k : Text × ResourceKind}

theorem firstOfKeys_sublist (seen : List (Text × ResourceKind)) (fs : List Found) :
    (firstOfKeys seen fs).Sublist fs := by
  induction fs generalizing seen with
  | nil => exact .slnil
  | cons f fs ih =>
    rw [firstOfKeys]
    split
    · exact (ih seen).cons f
    · exact (ih _).cons_cons f

/-- The keys that are there afterwards are those that were not seen before. -/
theorem mem_keys_firstOfKeys :
    k ∈ (firstOfKeys seen fs).map (·.1.key) ↔ k ∈ fs.map (·.1.key) ∧ k ∉ seen := by
  induction fs generalizing seen with
  | nil => simp [firstOfKeys]
  | cons f fs ih =>
    rw [firstOfKeys]
    split
    · rename_i hseen
      have hmem : f.1.key ∈ seen := by simpa using hseen
      rw [ih, List.map_cons, List.mem_cons]
      constructor
      · exact fun ⟨hk, hnew⟩ => ⟨.inr hk, hnew⟩
      · exact fun ⟨hk, hnew⟩ => ⟨hk.resolve_left fun h => hnew (h ▸ hmem), hnew⟩
    · rename_i hnew
      have hmem : f.1.key ∉ seen := by simpa using hnew
      rw [List.map_cons, List.mem_cons, ih, List.map_cons, List.mem_cons, List.mem_cons, not_or]
      by_cases hk : k = f.1.key
      · subst hk
        simp [hmem]
      · simp [hk]

theorem nodup_firstOfKeys (seen : List (Text × ResourceKind)) (fs : List Found) :
    ((firstOfKeys seen fs).map (·.1.key)).Nodup := by
  induction fs generalizing seen with
  | nil => exact List.nodup_nil
  | cons f fs ih =>
    rw [firstOfKeys]
    split
    · exact ih seen
    · rw [List.map_cons, List.nodup_cons]
      exact ⟨fun h => (mem_keys_firstOfKeys.mp h).2 List.mem_cons_self, ih _⟩

end Keys

/-! ### What becomes of a registration -/

namespace Provider

variable {p : Provider} {f : Found} {found : List Found} {xs : List Resource} {ws : List Text}

/-- Why a registration has no resource: its builder is no function of the provider, or one that
returns no literal. -/
def unresolved? (p : Provider) (f : Found) : Option ExtractionFailure :=
  match f.1.builder with
  | none => none
  | some name =>
    match p.function? name f.2 with
    | none => some (.builderMissing name)
    | some (_, d) => if d.returnedLiteral?.isSome then none else some (.literalMissing name)

/-- The attributes that a builder gives a resource. -/
def builderAttributes (p : Provider) (b : Builder) : Except Invalid (List Attribute) :=
  match b.field? "Schema" with
  | some v => p.attributes v b.source
  | none => .ok []

/-- The resource that a builder makes of a registration and attributes. -/
def Builder.toResource (b : Builder) (providerPrefix : Text) (r : Registration)
    (as : List Attribute) : Resource where
  name := r.typeName
  kind := r.kind
  displayName := some (displayName r.typeName providerPrefix)
  filePath := some b.source.path
  description := b.fieldString? "Description"
  deprecation := b.fieldString? "DeprecationMessage"
  breakingChanges := nonEmpty? (breakingChanges as)
  apiVersion := b.source.apiVersion?
  attributes := as
  source := some b.snippets
  serviceDirectory := serviceDirectory? b.source.path

theorem builtResource_eq (p : Provider) (r : Registration) (b : Builder) :
    p.builtResource r b = (p.builderAttributes b).map (b.toResource p.providerPrefix r) := by
  rw [builtResource, builderAttributes]
  cases b.field? "Schema" with
  | none => rfl
  | some v =>
    dsimp only
    cases p.attributes v b.source <;> rfl

/-- A builder makes a resource with the name and the kind of the registration, unless one of its
attributes is invalid. -/
theorem builtResource_cases (p : Provider) (r : Registration) (b : Builder) :
    (∃ i, p.builderAttributes b = .error i ∧ p.builtResource r b = .error i) ∨
      ∃ as x, p.builderAttributes b = .ok as ∧ p.builtResource r b = .ok x ∧
        (x.name, x.kind) = r.key := by
  rw [builtResource_eq]
  cases p.builderAttributes b with
  | error i => exact .inl ⟨i, rfl, rfl⟩
  | ok as => exact .inr ⟨as, _, rfl, rfl, rfl⟩

/-- A registration that is not resolved fails for the reason told. One that is resolved has a
resource with its name and kind, unless a record is invalid. -/
theorem resource_cases (p : Provider) (f : Found) :
    (∃ e, p.unresolved? f = some e ∧ p.resource f.1 f.2 = .error e ∧ ∀ i, e ≠ .invalid i) ∨
      p.unresolved? f = none ∧
        ((∃ x, p.resource f.1 f.2 = .ok x ∧ (x.name, x.kind) = f.1.key) ∨
          ∃ i, p.resource f.1 f.2 = .error (.invalid i)) := by
  rw [unresolved?, resource]
  cases f.1.builder with
  | none => exact .inr ⟨rfl, .inl ⟨_, rfl, rfl⟩⟩
  | some name =>
    dsimp only
    rw [builder]
    cases p.function? name f.2 with
    | none => exact .inl ⟨_, rfl, rfl, nofun⟩
    | some found =>
      obtain ⟨s, d⟩ := found
      dsimp only
      cases d.returnedLiteral? with
      | none => exact .inl ⟨_, rfl, rfl, nofun⟩
      | some l =>
        refine .inr ⟨rfl, ?_⟩
        simp only [bind, Except.bind]
        rcases p.builtResource_cases f.1 ⟨name, s, d, l⟩ with
          ⟨i, -, hbuilt⟩ | ⟨-, x, -, hbuilt, hkey⟩
        · exact .inr ⟨i, by rw [hbuilt]; rfl⟩
        · exact .inl ⟨x, by rw [hbuilt]; rfl, hkey⟩

section Resources

variable {x : Resource} {e : ExtractionFailure} {i : Invalid}

theorem resources_cons_ok (h : p.resource f.1 f.2 = .ok x) (found : List Found) :
    p.resources (f :: found) = ((p.resources found).1.map (x :: ·), (p.resources found).2) := by
  obtain ⟨r, s⟩ := f
  simp only [resources, h]

theorem resources_cons_invalid (h : p.resource f.1 f.2 = .error (.invalid i))
    (found : List Found) : p.resources (f :: found) = (.error (.invalid i), []) := by
  obtain ⟨r, s⟩ := f
  simp only [resources, h]

theorem resources_cons_skip (h : p.resource f.1 f.2 = .error e) (he : ∀ i, e ≠ .invalid i)
    (found : List Found) :
    p.resources (f :: found) =
      ((p.resources found).1, skipWarning f.1.typeName e :: (p.resources found).2) := by
  obtain ⟨r, s⟩ := f
  cases e with
  | invalid i => exact absurd rfl (he i)
  | noSources | nothingFound | builderMissing | literalMissing | notUnicode =>
    simp only [resources, h]

/-- The resources of registrations stand in the order of those that are resolved, and the warnings
in the order of the others. -/
theorem resources_ok (h : p.resources found = (.ok xs, ws)) :
    List.Forall₂ (fun f x => p.resource f.1 f.2 = .ok x ∧ (x.name, x.kind) = f.1.key)
        (found.filter fun f => (p.unresolved? f).isNone) xs ∧
      ws = found.filterMap fun f => (p.unresolved? f).map (skipWarning f.1.typeName) := by
  induction found generalizing xs ws with
  | nil =>
    cases h
    exact ⟨.nil, rfl⟩
  | cons f found ih =>
    rcases p.resource_cases f with ⟨e, hwhy, hfails, hvalid⟩ | ⟨hwhy, ⟨x, hx, hkey⟩ | ⟨i, hi⟩⟩
    · rw [resources_cons_skip hfails hvalid] at h
      obtain ⟨hxs, rfl⟩ := Prod.mk.inj h
      obtain ⟨hbuilt, hwarnings⟩ := ih (Prod.ext hxs rfl)
      exact ⟨by simpa [hwhy] using hbuilt, by simpa [hwhy] using hwarnings⟩
    · rw [resources_cons_ok hx] at h
      obtain ⟨hmap, rfl⟩ := Prod.mk.inj h
      cases hrest : (p.resources found).1 with
      | error e =>
        rw [hrest] at hmap
        exact nomatch hmap
      | ok ys =>
        rw [hrest] at hmap
        cases hmap
        obtain ⟨hbuilt, hwarnings⟩ := ih (Prod.ext hrest rfl)
        exact ⟨by simpa [hwhy] using ⟨⟨hx, hkey⟩, hbuilt⟩, by simpa [hwhy] using hwarnings⟩
    · rw [resources_cons_invalid hi] at h
      exact nomatch (Prod.mk.inj h).1

/-- The resources of registrations are those that can be made. -/
theorem eq_filterMap_of_resources (h : p.resources found = (.ok xs, ws)) :
    xs = found.filterMap fun f => (p.resource f.1 f.2).toOption := by
  induction found generalizing xs ws with
  | nil =>
    cases h
    rfl
  | cons f found ih =>
    rcases p.resource_cases f with ⟨e, -, hfails, hvalid⟩ | ⟨-, ⟨x, hx, -⟩ | ⟨i, hi⟩⟩
    · rw [resources_cons_skip hfails hvalid] at h
      rw [List.filterMap_cons_none (by rw [hfails]; rfl)]
      exact ih (Prod.ext (Prod.mk.inj h).1 rfl)
    · rw [resources_cons_ok hx] at h
      rw [List.filterMap_cons_some (by rw [hx]; rfl)]
      obtain ⟨ys, hys, rfl⟩ := except_map_eq_ok.mp (Prod.mk.inj h).1
      rw [← ih (Prod.ext hys rfl)]
    · rw [resources_cons_invalid hi] at h
      exact nomatch (Prod.mk.inj h).1

/-- Resources have the names and kinds of their registrations. -/
theorem map_key_eq
    (h : List.Forall₂ (fun f x => p.resource f.1 f.2 = .ok x ∧ (x.name, x.kind) = f.1.key)
      found xs) : found.map (·.1.key) = xs.map fun x => (x.name, x.kind) := by
  rw [← List.forall₂_eq_eq_eq, List.forall₂_map_left_iff, List.forall₂_map_right_iff]
  exact h.imp fun _ _ h => h.2.symm

end Resources

/-! ### Extractions -/

theorem extract_of_registrations (hsources : p.sources ≠ [])
    (hfound : registrations p.providerPrefix p.sources = .ok found) :
    p.extract = match p.resources found with
      | (.error e, ws) => (.error e, ws)
      | (.ok [], ws) => (.error .nothingFound, ws)
      | (.ok xs, ws) => (.ok (xs.mergeSort inNameOrder), ws) := by
  rw [extract, List.isEmpty_eq_false_iff.mpr hsources, hfound]
  rfl

/-- The resources of files before they are sorted, if they can be made. -/
def resources? (providerPrefix : Text) (files : List RepositoryFile) : Option (List Resource) :=
  match ofFiles providerPrefix files with
  | .error _ => none
  | .ok (p, _) =>
    match p.sources, registrations p.providerPrefix p.sources with
    | _ :: _, .ok found => (p.resources found).1.toOption
    | _, _ => none

theorem extract_of_resources? {providerPrefix : Text} {files : List RepositoryFile}
    (h : resources? providerPrefix files = some xs) (hne : xs ≠ []) :
    ∃ p parsed ws, ofFiles providerPrefix files = .ok (p, parsed) ∧
      p.extract = (.ok (xs.mergeSort inNameOrder), ws) := by
  rw [resources?] at h
  split at h
  · exact nomatch h
  · rename_i p parsed hparsed
    split at h
    · rename_i s ss found hsources hfound
      have hbuilt : p.resources found = (.ok xs, (p.resources found).2) :=
        Prod.ext (eq_ok_of_toOption h) rfl
      refine ⟨p, parsed, (p.resources found).2, hparsed, ?_⟩
      rw [extract_of_registrations (hsources ▸ List.cons_ne_nil s ss) hfound, hbuilt]
      cases xs with
      | nil => exact absurd rfl hne
      | cons => rfl
    · exact nomatch h

/-- An extraction that comes to its end finds registrations. -/
theorem extract_ok (h : p.extract = (.ok xs, ws)) :
    ∃ found built, registrations p.providerPrefix p.sources = .ok found ∧
      p.resources found = (.ok built, ws) ∧ built ≠ [] ∧ xs = built.mergeSort inNameOrder := by
  rw [extract] at h
  split at h
  · exact nomatch (Prod.mk.inj h).1
  · split at h
    · exact nomatch (Prod.mk.inj h).1
    · rename_i found hfound
      split at h
      · exact nomatch (Prod.mk.inj h).1
      · exact nomatch (Prod.mk.inj h).1
      · rename_i built ws' hne hbuilt
        cases h
        exact ⟨found, built, hfound, hbuilt, hne, rfl⟩

/-- A resource of an extraction is that of a registration which is found. -/
theorem mem_extract_iff (h : p.extract = (.ok xs, ws))
    (hfound : registrations p.providerPrefix p.sources = .ok found) {x : Resource} :
    x ∈ xs ↔ ∃ f ∈ found, p.resource f.1 f.2 = .ok x := by
  obtain ⟨found', built, hfound', hbuilt, -, rfl⟩ := extract_ok h
  obtain rfl : found = found' := Except.ok.inj (hfound.symm.trans hfound')
  rw [(List.mergeSort_perm built inNameOrder).mem_iff, eq_filterMap_of_resources hbuilt,
    List.mem_filterMap]
  refine exists_congr fun f => and_congr_right fun _ => ⟨eq_ok_of_toOption, fun hx => ?_⟩
  rw [hx]
  rfl

/-- No two resources of an extraction have the same name and kind. -/
theorem nodup_keys_of_extract (h : p.extract = (.ok xs, ws)) :
    (xs.map fun x => (x.name, x.kind)).Nodup := by
  obtain ⟨found, built, hfound, hbuilt, -, rfl⟩ := extract_ok h
  obtain ⟨inMaps, -, hrest⟩ := except_bind_eq_ok.mp hfound
  obtain ⟨inLists, -, hrest⟩ := except_bind_eq_ok.mp hrest
  obtain rfl : firstOfKeys [] (inMaps ++ inLists) = found := Except.ok.inj hrest
  rw [((List.mergeSort_perm built inNameOrder).map _).nodup_iff,
    ← map_key_eq (resources_ok hbuilt).1]
  exact (nodup_firstOfKeys [] (inMaps ++ inLists)).sublist (List.filter_sublist.map _)

/-- An extraction that comes to its end makes one resource of each registration whose builder, if it
has one, is a function that returns a literal, sorted by name and otherwise in the order of the
registrations, and tells one warning for each other registration. No name and kind is lost or made
twice. -/
theorem extract_corresponds (h : p.extract = (.ok xs, ws)) :
    ∃ inMaps inLists found built, mapRegistrations p.sources = .ok inMaps ∧
      listRegistrations p.providerPrefix p.sources = .ok inLists ∧
      registrations p.providerPrefix p.sources = .ok found ∧
      found.Sublist (inMaps ++ inLists) ∧ (found.map (·.1.key)).Nodup ∧
      (∀ f ∈ inMaps ++ inLists, f.1.key ∈ found.map (·.1.key)) ∧
      List.Forall₂ (fun f x => p.resource f.1 f.2 = .ok x ∧ (x.name, x.kind) = f.1.key)
        (found.filter fun f => (p.unresolved? f).isNone) built ∧
      xs.Perm built ∧ xs.Pairwise (fun a b => Text.lt b.name a.name = false) ∧
      (∀ name, xs.filter (·.name == name) = built.filter (·.name == name)) ∧
      (xs.map fun x => (x.name, x.kind)).Nodup ∧
      ws = found.filterMap fun f => (p.unresolved? f).map (skipWarning f.1.typeName) := by
  obtain ⟨found, built, hfound, hbuilt, -, rfl⟩ := extract_ok h
  obtain ⟨hforall, hwarnings⟩ := resources_ok hbuilt
  obtain ⟨inMaps, hmaps, hrest⟩ := except_bind_eq_ok.mp hfound
  obtain ⟨inLists, hlists, hrest⟩ := except_bind_eq_ok.mp hrest
  obtain rfl : firstOfKeys [] (inMaps ++ inLists) = found := Except.ok.inj hrest
  have hnodup := nodup_firstOfKeys [] (inMaps ++ inLists)
  have hperm := List.mergeSort_perm built inNameOrder
  have hkeys := map_key_eq hforall
  refine ⟨inMaps, inLists, _, built, hmaps, hlists, hfound, firstOfKeys_sublist _ _, hnodup,
    fun f hf => mem_keys_firstOfKeys.mpr ⟨List.mem_map_of_mem hf, List.not_mem_nil⟩, hforall, hperm,
    Text.pairwise_mergeSort (·.name) built, Text.filter_mergeSort (·.name) built, ?_, hwarnings⟩
  rw [(hperm.map _).nodup_iff, ← hkeys]
  exact hnodup.sublist (List.filter_sublist.map _)

/-- The provider of files, the keys of the registrations that can be resolved, and the warnings, if
resources can be made. -/
def resolved? (providerPrefix : Text) (files : List RepositoryFile) :
    Option (Provider × List (Text × ResourceKind) × List Text) :=
  match ofFiles providerPrefix files with
  | .error _ => none
  | .ok (p, _) =>
    match p.sources, registrations p.providerPrefix p.sources with
    | _ :: _, .ok found =>
      match p.resources found with
      | (.ok (_ :: _), ws) =>
        some (p, (found.filter fun f => (p.unresolved? f).isNone).map (·.1.key), ws)
      | _ => none
    | _, _ => none

theorem resolved?_eq_some {providerPrefix : Text} {files : List RepositoryFile}
    {keys : List (Text × ResourceKind)} (h : resolved? providerPrefix files = some (p, keys, ws)) :
    ∃ parsed found xs, ofFiles providerPrefix files = .ok (p, parsed) ∧
      registrations p.providerPrefix p.sources = .ok found ∧ p.extract = (.ok xs, ws) ∧
      (found.filter fun f => (p.unresolved? f).isNone).map (·.1.key) = keys := by
  rw [resolved?] at h
  split at h
  · exact nomatch h
  · rename_i q parsed hparsed
    split at h
    · rename_i s ss found hsources hfound
      split at h
      · rename_i x xs ws' hbuilt
        cases h
        refine ⟨parsed, found, (x :: xs).mergeSort inNameOrder, hparsed, hfound, ?_, rfl⟩
        rw [extract_of_registrations (hsources ▸ List.cons_ne_nil s ss) hfound, hbuilt]
      · exact nomatch h
    · exact nomatch h

/-- Three registrations out of the order of their names, of which one has no builder. -/
def threeRegistrations : RepositoryFile :=
  ⟨1, "a.go", "a.go", "go",
    "package p\n" ++
      "var all = map[string]schema.Resource\x7b\"p_b\": b(), \"p_c\": c(), \"p_a\": a()\x7d\n" ++
      "func a() R \x7b return R\x7b\x7d \x7d\nfunc b() R \x7b return R\x7b\x7d \x7d\n", 1⟩

/-- What can be resolved of the three registrations. -/
def twoResolved : List (Text × ResourceKind) × List Text :=
  ([("p_b", .resource), ("p_a", .resource)], [skipWarning "p_c" (.builderMissing "c")])

set_option maxRecDepth 100000 in
private theorem threeRegistrations_resolved :
    (resolved? "p" [threeRegistrations]).map (·.2) = some twoResolved := by
  decide +kernel

/-- Two resources are made of the three registrations, one under each name. -/
theorem extract_corresponds_of_three :
    ∃ p parsed xs, ofFiles "p" [threeRegistrations] = .ok (p, parsed) ∧
      p.extract = (.ok xs, twoResolved.2) ∧
      (xs.map fun x => (x.name, x.kind)).Perm twoResolved.1 ∧
      xs.Pairwise fun a b => Text.lt b.name a.name = false := by
  obtain ⟨⟨p, keys, ws⟩, hresolved, htwo⟩ := Option.map_eq_some_iff.mp threeRegistrations_resolved
  obtain ⟨rfl, rfl⟩ := Prod.mk.inj htwo
  obtain ⟨parsed, found, xs, hparsed, hfound, hextract, hkeys⟩ := resolved?_eq_some hresolved
  obtain ⟨-, -, found', built, -, -, hfound', -, -, -, hbuilt, hperm, hsorted, -⟩ :=
    extract_corresponds hextract
  obtain rfl : found = found' := Except.ok.inj (hfound.symm.trans hfound')
  refine ⟨p, parsed, xs, hparsed, hextract, ?_, hsorted⟩
  rw [twoResolved, ← hkeys, map_key_eq hbuilt]
  exact hperm.map _

end Provider

end ProviderCatalog.Schema
