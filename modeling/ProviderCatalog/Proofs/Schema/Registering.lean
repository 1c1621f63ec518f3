import ProviderCatalog.Proofs.Go.Addresses
import ProviderCatalog.Proofs.Schema.Failing

/-!
# All registrations of a list of files

The registrations that are discovered are those in maps, in the order of the files and, in each of
them, of the source, a map before the maps inside it, and behind them those in lists, those that
functions return before those that methods do. If the names of all of them can be encoded, the first
one under each key stays, and nothing else is lost. A key of a map that cannot be encoded makes the
registrations fail altogether.

A map of registrations can stand anywhere in a source, also inside another one. As every node of a
source is searched once, in the order of the source, so is every such map found once.

## Main definitions

* `Node.preorder`: the nodes of a tree, each before its parts.
* `source?`: the source that a file is, if it is one.
* `discovered`: all registrations, in the order in which they count.
* `firstOccurrences`: the registrations before which none has the same key.
* `Deduplicated`: what is left of all registrations, and in which order.
* `registrationMaps`: the maps of a source, with the addresses at which they stand.
* `registeredInMaps`: what is registered in the maps of sources.

## Main results

* `Node.walk_eq_preorder`: the order in which a tree is searched.
* `registrations_eq_ok`, `registrations_isOk_iff`: which registrations are found, and when.
* `firstOfKeys_eq_firstOccurrences`, `firstOfKeys_append`: what is left of all registrations.
* `registrations_outcome`: the registrations of any files that can be encoded.
* `mem_registrationMaps`, `pairwise_registrationMaps`: every map once and in order.
* `maps_discovered_in_order`: the search of a tree, and what it finds in maps.
-/

namespace ProviderCatalog.Go.Node

/-! ### The order of the nodes of a tree -/

mutual

/-- The named nodes of a tree, each before its parts. -/
def preorder : Node → List Node
  | leaf k leading text => [leaf k leading text]
  | branch k cs => branch k cs :: preorderOf cs

/-- The named nodes of neighbouring trees. -/
def preorderOf : List (Role × Node) → List Node
  | [] => []
  | (_, n) :: rest => if n.isNamed then preorder n ++ preorderOf rest else preorderOf rest

end

theorem preorderOf_eq (cs : List (Role × Node)) :
    preorderOf cs = ((cs.map (·.2)).filter isNamed).flatMap preorder := by
  induction cs with
  | nil => rfl
  | cons c cs ih =>
    rw [preorderOf, ih, List.map_cons, List.filter_cons]
    split <;> rfl

theorem preorder_eq (n : Node) : n.preorder = n :: n.namedChildren.flatMap preorder := by
  cases n with
  | leaf => rfl
  | branch k cs => rw [preorder, preorderOf_eq]; rfl

/-- A tree is searched in the order of its nodes. -/
theorem walk_eq_preorder (n : Node) : n.walk = n.preorder := by
  induction n using induction_namedChildren with
  | node n ih =>
    rw [walk_eq, preorder_eq]
    exact congrArg (n :: ·) (List.flatMap_congr ih)

end ProviderCatalog.Go.Node

namespace ProviderCatalog.Schema

open Go (Address Node Search Source)

variable {providerPrefix : Text} {files : List RepositoryFile} {sources : List Source}

/-! ### Files that are parsed -/

/-- The source that a file is, if it is one. -/
def source? (f : RepositoryFile) : Option Source :=
  if f.name.endsWith ".go" then (Source.ofFile f).toOption else none

theorem ofFile_of_source? {f : RepositoryFile} {s : Source} (h : source? f = some s) :
    Source.ofFile f = .ok s := by
  rw [source?] at h
  split at h
  · exact eq_ok_of_toOption h
  · exact nomatch h

/-- The sources of files stand in the order of the files. -/
theorem sources_of_parseFiles {ws : List Text} (h : parseFiles files = .ok (sources, ws)) :
    sources = files.filterMap source? := by
  induction files generalizing sources ws with
  | nil =>
    cases h
    rfl
  | cons f files ih =>
    rw [parseFiles] at h
    rw [List.filterMap_cons, source?]
    cases hname : f.name.endsWith ".go" with
    | false => simpa [hname] using ih (by simpa [hname] using h)
    | true =>
      simp only [hname, Bool.not_true, Bool.false_eq_true, if_false] at h
      split at h
      · rename_i s hs
        obtain ⟨⟨ss, ws'⟩, hrest, h⟩ := except_bind_eq_ok.mp h
        cases h
        simp [hs, Except.toOption, ih hrest]
      · rename_i path hs
        obtain ⟨⟨ss, ws'⟩, hrest, h⟩ := except_bind_eq_ok.mp h
        cases h
        simp [hs, Except.toOption, ih hrest]
      · cases h

theorem Provider.ofFiles_eq_ok {p : Provider} {ws : List Text}
    (h : Provider.ofFiles providerPrefix files = .ok (p, ws)) :
    p = ⟨files.filterMap source?, providerPrefix⟩ := by
  obtain ⟨⟨ss, ws'⟩, hparsed, h⟩ := except_bind_eq_ok.mp h
  cases h
  rw [sources_of_parseFiles hparsed]

/-! ### Registrations that are discovered -/

/-- The registration in a map, under a name and with a builder. -/
def Found.inMap (s : Source) (entry : Text × Text) : Found :=
  (⟨entry.1, some entry.2, .ofBuilder entry.2⟩, s)

/-- The registration in a list, under a name and of a kind. -/
def Found.inList (s : Source) (entry : Text × ResourceKind) : Found :=
  (⟨entry.1, none, entry.2⟩, s)

/-- The registrations in the maps of a source, whose braces are given. -/
def Found.ofMap (s : Source) (braces : Node) : List Found :=
  (braces.keyedElements.filterMap mapElement?).map (inMap s)

/-- The registrations in the lists that a declaration of a source returns, if it lists any. -/
def Found.ofDeclaration (providerPrefix : Text) (s : Source) (d : Node) : List Found :=
  match listKind? d with
  | some kind => (listedNames providerPrefix d).map fun n => inList s (n, kind)
  | none => []

/-- All registrations in maps. -/
def discoveredInMaps (sources : List Source) : List Found :=
  sources.flatMap fun s => (s.root.preorder.filterMap registrationMap?).flatMap (Found.ofMap s)

/-- All registrations in lists. -/
def discoveredInLists (providerPrefix : Text) (sources : List Source) : List Found :=
  sources.flatMap fun s => (s.functions.map (·.2)).flatMap (Found.ofDeclaration providerPrefix s) ++
    s.methods.flatMap (Found.ofDeclaration providerPrefix s)

/-- All registrations, in the order in which they count. -/
def discovered (providerPrefix : Text) (sources : List Source) : List Found :=
  discoveredInMaps sources ++ discoveredInLists providerPrefix sources

theorem discoveredInMaps_append (sources more : List Source) :
    discoveredInMaps (sources ++ more) = discoveredInMaps sources ++ discoveredInMaps more :=
  List.flatMap_append

theorem discoveredInMaps_eq (sources : List Source) :
    discoveredInMaps sources = sources.flatMap fun s => (mapEntries s).map (Found.inMap s) := by
  simp only [discoveredInMaps, mapEntries, Node.walk_eq_preorder, List.map_flatMap]
  rfl

theorem discoveredInLists_eq (providerPrefix : Text) (sources : List Source) :
    discoveredInLists providerPrefix sources =
      sources.flatMap fun s => (listEntries providerPrefix s).map (Found.inList s) := by
  refine List.flatMap_congr fun s _ => ?_
  rw [← List.flatMap_append, listEntries, List.map_flatMap]
  refine List.flatMap_congr fun d _ => ?_
  rw [Found.ofDeclaration]
  cases listKind? d with
  | none => rfl
  | some kind =>
    dsimp only
    rw [List.map_map]
    rfl

/-- Registrations stand in sources. -/
theorem source_mem_of_mem_discovered {f : Found} (h : f ∈ discovered providerPrefix sources) :
    f.2 ∈ sources := by
  rw [discovered, discoveredInMaps_eq, discoveredInLists_eq] at h
  rcases List.mem_append.mp h with h | h
  all_goals
    obtain ⟨s, hs, h⟩ := List.mem_flatMap.mp h
    obtain ⟨entry, -, rfl⟩ := List.mem_map.mp h
    exact hs

/-! ### Registrations that are made -/

theorem eq_map_of_mapM {α β ε : Type} {f : α → Except ε β} {g : α → β}
    (hf : ∀ a b, f a = .ok b → b = g a) {as : List α} {bs : List β} (h : as.mapM f = .ok bs) :
    bs = as.map g := by
  induction as generalizing bs with
  | nil =>
    cases h
    rfl
  | cons a as ih =>
    rw [List.mapM_cons] at h
    obtain ⟨b, hb, h⟩ := except_bind_eq_ok.mp h
    obtain ⟨bs', hbs, h⟩ := except_bind_eq_ok.mp h
    cases h
    rw [List.map_cons, hf a b hb, ih hbs]

/-- Registrations that are made of the entries of sources stand in the order of the entries. -/
theorem eq_flatMap_of_made {α : Type} (make : α → Except Invalid Registration)
    {entries : Source → List α} {found : Source → α → Found} {made : List Found}
    (hmake : ∀ s x r, make x = .ok r → (r, s) = found s x)
    (h : ((sources.flatMap fun s => (entries s).map (·, s)).mapM fun x => do
      return (← make x.1, x.2)) = .ok made) :
    made = sources.flatMap fun s => (entries s).map (found s) := by
  have hmap := eq_map_of_mapM (g := fun x => found x.2 x.1) (fun x f hx => ?_) h
  · rw [hmap, List.map_flatMap]
    simp only [List.map_map, Function.comp_def]
  · obtain ⟨r, hr, hx⟩ := except_bind_eq_ok.mp hx
    cases hx
    exact hmake x.2 x.1 r hr

theorem mapRegistrations_eq_ok {found : List Found} (h : mapRegistrations sources = .ok found) :
    found = discoveredInMaps sources := by
  rw [discoveredInMaps_eq]
  refine eq_flatMap_of_made
    (fun x : Text × Text => Registration.make x.1 (some x.2) (.ofBuilder x.2))
    (fun s x r hr => ?_) h
  rw [Registration.eq_of_make hr]
  rfl

theorem listRegistrations_eq_ok {found : List Found}
    (h : listRegistrations providerPrefix sources = .ok found) :
    found = discoveredInLists providerPrefix sources := by
  rw [discoveredInLists_eq]
  refine eq_flatMap_of_made (fun x : Text × ResourceKind => Registration.make x.1 none x.2)
    (fun s x r hr => ?_) h
  rw [Registration.eq_of_make hr]
  rfl

/-- The registrations that are found are the first ones under their keys. -/
theorem registrations_eq_ok {found : List Found}
    (h : registrations providerPrefix sources = .ok found) :
    found = firstOfKeys [] (discovered providerPrefix sources) := by
  obtain ⟨inMaps, hmaps, h⟩ := except_bind_eq_ok.mp h
  obtain ⟨inLists, hlists, h⟩ := except_bind_eq_ok.mp h
  cases h
  rw [mapRegistrations_eq_ok hmaps, listRegistrations_eq_ok hlists, discovered]

/-- Registrations are found if the names of all that are discovered can be encoded. -/
theorem registrations_isOk_iff :
    (registrations providerPrefix sources).isOk = true ↔
      ∀ f ∈ discovered providerPrefix sources, f.1.typeName.isUnicode = true := by
  have hmaps := mapRegistrations_isOk sources
  have hlists := listRegistrations_isOk_eq providerPrefix sources
  have hdiscovered : (∀ f ∈ discovered providerPrefix sources, f.1.typeName.isUnicode = true) ↔
      (mapRegistrations sources).isOk = true ∧
        (listRegistrations providerPrefix sources).isOk = true := by
    rw [hmaps, hlists, discovered, discoveredInMaps_eq, discoveredInLists_eq]
    simp only [List.forall_mem_append, List.forall_mem_flatMap, List.forall_mem_map,
      List.all_eq_true]
    exact Iff.rfl
  rw [hdiscovered, registrations]
  cases mapRegistrations sources with
  | error i => exact ⟨fun h => absurd h Bool.false_ne_true, fun h => absurd h.1 Bool.false_ne_true⟩
  | ok inMaps =>
    cases listRegistrations providerPrefix sources with
    | error i =>
      exact ⟨fun h => absurd h Bool.false_ne_true, fun h => absurd h.2 Bool.false_ne_true⟩
    | ok inLists => exact ⟨fun _ => ⟨rfl, rfl⟩, fun _ => rfl⟩

/-! ### First occurrences -/

section Keys

variable {seen : List (Text × ResourceKind)} {all fs gs : List Found} {f : Found}
  {k : Text × ResourceKind}

/-- The registrations before which none has the same key. -/
def firstOccurrences (all : List Found) : List Found :=
  (all.zipIdx.filter fun x => x.1.1.key ∉ (all.take x.2).map (·.1.key)).map (·.1)

theorem firstOfKeys_cons_of_mem (h : f.1.key ∈ seen) (fs : List Found) :
    firstOfKeys seen (f :: fs) = firstOfKeys seen fs :=
  if_pos (List.contains_iff_mem.mpr h)

theorem firstOfKeys_cons_of_notMem (h : f.1.key ∉ seen) (fs : List Found) :
    firstOfKeys seen (f :: fs) = f :: firstOfKeys (f.1.key :: seen) fs :=
  if_neg fun hseen => h (List.contains_iff_mem.mp hseen)

/-- What is left are the registrations whose keys neither were seen nor stand before them. -/
theorem firstOfKeys_eq_filter (seen : List (Text × ResourceKind)) (fs : List Found) :
    firstOfKeys seen fs = (fs.zipIdx.filter fun x =>
      x.1.1.key ∉ seen ∧ x.1.1.key ∉ (fs.take x.2).map (·.1.key)).map (·.1) := by
  induction fs generalizing seen with
  | nil => rfl
  | cons f fs ih =>
    -- behind the first registration, its key counts as seen, whether it was before or not
    have hrest (seen' : List (Text × ResourceKind)) (h : ∀ k, k ∉ seen' ↔ k ≠ f.1.key ∧ k ∉ seen) :
        firstOfKeys seen' fs = (((fs.zipIdx 1).filter fun x =>
          x.1.1.key ∉ seen ∧ x.1.1.key ∉ ((f :: fs).take x.2).map (·.1.key)).map (·.1)) := by
      rw [ih, List.zipIdx_succ, List.filter_map, List.map_map]
      refine congrArg (List.map _) (List.filter_congr fun x _ => ?_)
      simp only [Function.comp_apply, List.take_succ_cons, List.map_cons, List.mem_cons, not_or, h]
      rw [decide_eq_decide]
      tauto
    rw [List.zipIdx_cons, List.filter_cons]
    by_cases hf : f.1.key ∈ seen
    · rw [firstOfKeys_cons_of_mem hf]
      have hsame (k : Text × ResourceKind) : k ∉ seen ↔ k ≠ f.1.key ∧ k ∉ seen :=
        ⟨fun hk => ⟨fun h => hk (h ▸ hf), hk⟩, And.right⟩
      simpa [hf] using hrest seen hsame
    · rw [firstOfKeys_cons_of_notMem hf]
      have hmore (k : Text × ResourceKind) : k ∉ f.1.key :: seen ↔ k ≠ f.1.key ∧ k ∉ seen := by
        simp
      simpa [hf] using hrest _ hmore

theorem firstOfKeys_eq_firstOccurrences (all : List Found) :
    firstOfKeys [] all = firstOccurrences all := by
  rw [firstOfKeys_eq_filter, firstOccurrences]
  simp

/-- A key that was seen takes away what has it. -/
theorem firstOfKeys_cons_seen (k : Text × ResourceKind) (seen : List (Text × ResourceKind))
    (fs : List Found) :
    firstOfKeys (k :: seen) fs = (firstOfKeys seen fs).filter fun f => f.1.key ≠ k := by
  rw [firstOfKeys_eq_filter, firstOfKeys_eq_filter, List.filter_map, List.filter_filter]
  refine congrArg (List.map _) (List.filter_congr fun x _ => ?_)
  simp [and_assoc]

/-- Of registrations behind others, those stay whose keys the others do not have. -/
theorem firstOfKeys_append (seen : List (Text × ResourceKind)) (fs gs : List Found) :
    firstOfKeys seen (fs ++ gs) = firstOfKeys seen fs ++
      (firstOfKeys seen gs).filter fun g => g.1.key ∉ fs.map (·.1.key) := by
  induction fs generalizing seen with
  | nil => simp [firstOfKeys]
  | cons f fs ih =>
    rw [List.cons_append]
    by_cases hf : f.1.key ∈ seen
    · rw [firstOfKeys_cons_of_mem hf, firstOfKeys_cons_of_mem hf, ih]
      refine congrArg _ (List.filter_congr fun g hg => ?_)
      have hother : g.1.key ≠ f.1.key := fun h =>
        (mem_keys_firstOfKeys.mp (List.mem_map_of_mem hg)).2 (h ▸ hf)
      simp [hother]
    · rw [firstOfKeys_cons_of_notMem hf, firstOfKeys_cons_of_notMem hf, ih,
        firstOfKeys_cons_seen _ _ gs, List.filter_filter]
      refine congrArg (f :: _ ++ ·) (List.filter_congr fun g _ => ?_)
      rw [← Bool.decide_and, decide_eq_decide, List.map_cons, List.mem_cons, not_or, and_comm]

/-- The first registration under a key stays. -/
theorem find?_firstOfKeys (hk : k ∉ seen) (fs : List Found) :
    (firstOfKeys seen fs).find? (·.1.key == k) = fs.find? (·.1.key == k) := by
  induction fs generalizing seen with
  | nil => rfl
  | cons f fs ih =>
    rw [List.find?_cons]
    by_cases hf : f.1.key ∈ seen
    · have hother : (f.1.key == k) = false := beq_eq_false_iff_ne.mpr fun h => hk (h ▸ hf)
      rw [firstOfKeys_cons_of_mem hf, ih hk, hother]
    · rw [firstOfKeys_cons_of_notMem hf, List.find?_cons]
      cases hkey : f.1.key == k with
      | true => rfl
      | false =>
        have hother : k ≠ f.1.key := fun h => beq_eq_false_iff_ne.mp hkey h.symm
        exact ih fun h => (List.mem_cons.mp h).elim hother hk

end Keys

/-! ### All registrations -/

/-- Of the registrations in maps and behind them those in lists, the first under each key are left,
in their order. A registration in a list is left only if no map has its key. -/
structure Deduplicated (inMaps inLists found : List Found) : Prop where
  first : found = firstOccurrences (inMaps ++ inLists)
  nodup : (found.map (·.1.key)).Nodup
  complete : ∀ f ∈ inMaps ++ inLists,
    ∃ g ∈ found, g.1.key = f.1.key ∧ (inMaps ++ inLists).find? (·.1.key == f.1.key) = some g
  ordered : found.Sublist (inMaps ++ inLists)
  mapsFirst : found = firstOccurrences inMaps ++
    (firstOccurrences inLists).filter fun f => f.1.key ∉ inMaps.map (·.1.key)

theorem deduplicated_firstOfKeys (inMaps inLists : List Found) :
    Deduplicated inMaps inLists (firstOfKeys [] (inMaps ++ inLists)) where
  first := firstOfKeys_eq_firstOccurrences _
  nodup := nodup_firstOfKeys [] _
  complete f hf := by
    obtain ⟨g, hg⟩ : ∃ g, (inMaps ++ inLists).find? (·.1.key == f.1.key) = some g :=
      Option.isSome_iff_exists.mp (List.find?_isSome.mpr ⟨f, hf, beq_self_eq_true _⟩)
    have hleft := (find?_firstOfKeys List.not_mem_nil (inMaps ++ inLists)).trans hg
    have hkey := List.find?_some hg
    exact ⟨g, List.mem_of_find?_eq_some hleft, beq_iff_eq.mp hkey, hg⟩
  ordered := firstOfKeys_sublist [] _
  mapsFirst := by
    rw [firstOfKeys_append, firstOfKeys_eq_firstOccurrences, firstOfKeys_eq_firstOccurrences]

/-- From files that can be encoded, all registrations are found if their names can be encoded, the
first under each key, those in maps before those in lists. Otherwise none is found. -/
theorem registrations_outcome (providerPrefix : Text) {files : List RepositoryFile}
    (hfiles : ∀ f ∈ files, f.content.isUnicode = true) :
    ∃ p ws, Provider.ofFiles providerPrefix files = .ok (p, ws) ∧
      p.sources = files.filterMap source? ∧ p.providerPrefix = providerPrefix ∧
      ((∀ f ∈ discovered providerPrefix p.sources, f.1.typeName.isUnicode = true) →
        ∃ found, registrations p.providerPrefix p.sources = .ok found ∧
          Deduplicated (discoveredInMaps p.sources)
            (discoveredInLists providerPrefix p.sources) found) ∧
      ((∃ f ∈ discovered providerPrefix p.sources, f.1.typeName.isUnicode = false) →
        ∃ i, registrations p.providerPrefix p.sources = .error i) := by
  obtain ⟨⟨ss, ws⟩, hparsed⟩ := parseFiles_isOk hfiles
  have hisOk : (registrations providerPrefix ss).isOk = true ↔
      ∀ f ∈ discovered providerPrefix ss, f.1.typeName.isUnicode = true := registrations_isOk_iff
  refine ⟨⟨ss, providerPrefix⟩, ws, by rw [Provider.ofFiles, hparsed]; rfl,
    sources_of_parseFiles hparsed, rfl, fun hnames => ?_, fun ⟨f, hf, hname⟩ => ?_⟩
  · cases hfound : registrations providerPrefix ss with
    | error i => exact absurd ((hfound ▸ hisOk).mpr hnames) Bool.false_ne_true
    | ok found => exact ⟨found, rfl, registrations_eq_ok hfound ▸ deduplicated_firstOfKeys _ _⟩
  · cases hfound : registrations providerPrefix ss with
    | error i => exact ⟨i, rfl⟩
    | ok found => exact absurd (hname.symm.trans ((hfound ▸ hisOk).mp rfl f hf)) Bool.false_ne_true

/-- The registrations of files, if they are found. -/
def registrations? (providerPrefix : Text) (files : List RepositoryFile) :
    Option (List Registration) :=
  match Provider.ofFiles providerPrefix files with
  | .ok (p, _) =>
    match registrations p.providerPrefix p.sources with
    | .ok found => some (found.map (·.1))
    | .error _ => none
  | .error _ => none

theorem registrations?_eq_some {p : Provider} {ws : List Text} {rs : List Registration}
    (h : registrations? providerPrefix files = some rs)
    (hp : Provider.ofFiles providerPrefix files = .ok (p, ws)) :
    ∃ found, registrations p.providerPrefix p.sources = .ok found ∧ found.map (·.1) = rs := by
  rw [registrations?, hp] at h
  dsimp only at h
  split at h
  · rename_i found hfound
    exact ⟨found, hfound, Option.some.inj h⟩
  · exact nomatch h

/-- A list of structures in one file and a map in the next, with another map inside it, of which the
list has one name and the map one name twice. -/
def repeatedNames : List RepositoryFile := [
  ⟨1, "a.go", "a.go", "go",
    "package p\n\nfunc (r R) Resources() []sdk.Resource \x7b\n" ++
      "\treturn []sdk.Resource\x7bOneResource\x7b\x7d, TwoResource\x7b\x7d\x7d\n\x7d\n", 1⟩,
  ⟨1, "b.go", "b.go", "go",
    "package p\n\nvar all = map[string]schema.Resource\x7b\"p_one\": first(), \"p_x\": inner(" ++
      "map[string]schema.Resource\x7b\"p_three\": third()\x7d), \"p_one\": second()\x7d\n", 1⟩]

/-- What is left of the repeated names. -/
def firstNames : List Registration := [
  ⟨"p_one", some ("first" : Text), .resource⟩, ⟨"p_x", some ("inner" : Text), .resource⟩,
  ⟨"p_three", some ("third" : Text), .resource⟩, ⟨"p_two", none, .resource⟩]

set_option maxRecDepth 100000 in
private theorem repeatedNames_registered :
    (∀ f ∈ repeatedNames, f.content.isUnicode = true) ∧
      registrations? "p" repeatedNames = some firstNames := by
  decide +kernel

/-- The names of the outer map come first, then that of the inner one, then the one that only the
list has. -/
theorem registrations_outcome_of_repeated :
    (∀ f ∈ repeatedNames, f.content.isUnicode = true) ∧
      ∃ p ws found, Provider.ofFiles "p" repeatedNames = .ok (p, ws) ∧
        registrations p.providerPrefix p.sources = .ok found ∧ found.map (·.1) = firstNames ∧
        Deduplicated (discoveredInMaps p.sources) (discoveredInLists "p" p.sources) found := by
  obtain ⟨hfiles, hregistered⟩ := repeatedNames_registered
  obtain ⟨p, ws, hp, -, hprefix, hnames, -⟩ := registrations_outcome "p" hfiles
  obtain ⟨found, hfound, hfirst⟩ := registrations?_eq_some hregistered hp
  have hisOk : (registrations "p" p.sources).isOk = true := by
    rw [← hprefix, hfound]
    rfl
  obtain ⟨found', hfound', hdeduplicated⟩ := hnames (registrations_isOk_iff.mp hisOk)
  obtain rfl : found = found' := Except.ok.inj (hfound.symm.trans hfound')
  exact ⟨hfiles, p, ws, found, hp, hfound, hfirst, hdeduplicated⟩

set_option maxRecDepth 100000 in
private theorem surrogateKey_unregistered :
    surrogateKey.content.isUnicode = true ∧ registrations? "p" [surrogateKey] = none := by
  decide +kernel

/-- From files that can be encoded, registrations need not be found: a key of a map may be one that
cannot be encoded. -/
theorem registrations_missing :
    ¬∀ (providerPrefix : Text) (files : List RepositoryFile) (p : Provider) (ws : List Text),
      (∀ f ∈ files, f.content.isUnicode = true) →
        Provider.ofFiles providerPrefix files = .ok (p, ws) →
          registrations p.providerPrefix p.sources =
            .ok (firstOccurrences (discovered p.providerPrefix p.sources)) := by
  intro h
  obtain ⟨hcontent, hnone⟩ := surrogateKey_unregistered
  have hfiles : ∀ f ∈ [surrogateKey], f.content.isUnicode = true :=
    List.forall_mem_singleton.mpr hcontent
  obtain ⟨⟨ss, ws⟩, hparsed⟩ := parseFiles_isOk hfiles
  have hp : Provider.ofFiles "p" [surrogateKey] = .ok (⟨ss, "p"⟩, ws) := by
    rw [Provider.ofFiles, hparsed]
    rfl
  rw [registrations?, hp] at hnone
  dsimp only at hnone
  rw [h "p" _ _ ws hfiles hp] at hnone
  exact absurd hnone (Option.some_ne_none _)

/-! ### Maps at any depth -/

/-- The braces of the maps of a source, with the addresses at which the maps stand. -/
def registrationMaps (s : Source) : List (Address × Node) :=
  s.root.addresses.filterMap fun a =>
    ((s.root.at? a).bind registrationMap?).map fun braces => (a, braces)

/-- What is registered in the maps of sources. -/
def registeredInMaps (sources : List Source) : List Found :=
  sources.flatMap fun s => (registrationMaps s).flatMap fun x => Found.ofMap s x.2

/-- A map stands wherever a node of the source is one. -/
theorem mem_registrationMaps {s : Source} {a : Address} {braces : Node} :
    (a, braces) ∈ registrationMaps s ↔
      ∃ n, s.root.at? a = some n ∧ registrationMap? n = some braces := by
  rw [registrationMaps, List.mem_filterMap]
  constructor
  · rintro ⟨a', -, h⟩
    obtain ⟨braces', hmap, h⟩ := Option.map_eq_some_iff.mp h
    cases h
    exact Option.bind_eq_some_iff.mp hmap
  · rintro ⟨n, hn, hmap⟩
    refine ⟨a, Node.mem_addresses_iff.mpr (hn ▸ rfl), ?_⟩
    rw [hn, Option.bind_some, hmap, Option.map_some]

/-- No two maps stand at one address, and they are listed in the order of the addresses. -/
theorem pairwise_registrationMaps (s : Source) :
    (registrationMaps s).Pairwise fun x y => x.1 < y.1 := by
  refine (Node.pairwise_addresses s.root).filterMap _ fun a b hab x hx y hy => ?_
  obtain ⟨-, -, rfl⟩ := Option.map_eq_some_iff.mp hx
  obtain ⟨-, -, rfl⟩ := Option.map_eq_some_iff.mp hy
  exact hab

/-- The maps that a search of a source finds are those at its addresses. -/
theorem map_registrationMaps (s : Source) :
    (registrationMaps s).map (·.2) = s.root.walk.filterMap registrationMap? := by
  rw [Node.walk_eq_filterMap, registrationMaps, List.map_filterMap, List.filterMap_filterMap]
  refine List.filterMap_congr fun a _ => ?_
  rw [Option.map_map, Function.comp_def, Option.map_id']

theorem discoveredInMaps_eq_registeredInMaps (sources : List Source) :
    discoveredInMaps sources = registeredInMaps sources := by
  refine List.flatMap_congr fun s _ => ?_
  rw [← Node.walk_eq_preorder, ← map_registrationMaps, List.flatMap_map]

/-- If all names in maps can be encoded, all registrations in them are found, in their order, and
otherwise none is. -/
theorem mapRegistrations_eq_ok_iff {sources : List Source} {found : List Found} :
    mapRegistrations sources = .ok found ↔
      (∀ f ∈ registeredInMaps sources, f.1.typeName.isUnicode = true) ∧
        found = registeredInMaps sources := by
  have hisOk : (mapRegistrations sources).isOk = true ↔
      ∀ f ∈ registeredInMaps sources, f.1.typeName.isUnicode = true := by
    rw [mapRegistrations_isOk, ← discoveredInMaps_eq_registeredInMaps, discoveredInMaps_eq]
    simp only [List.forall_mem_flatMap, List.forall_mem_map, List.all_eq_true]
    exact Iff.rfl
  rw [← hisOk, ← discoveredInMaps_eq_registeredInMaps]
  constructor
  · intro h
    exact ⟨h ▸ rfl, mapRegistrations_eq_ok h⟩
  · rintro ⟨hok, rfl⟩
    cases h : mapRegistrations sources with
    | error i =>
      rw [h] at hok
      cases hok
    | ok found => rw [mapRegistrations_eq_ok h]

/-- A loop over a stack finds the nodes of a tree before their parts, one in each turn, until all are
found. They are the nodes at all addresses of the tree, each once and in the order of the source.
So every map of registrations in a source is found once, at whatever depth it stands, and the
registrations in maps are found in the order of the source, unless a name cannot be encoded. -/
theorem maps_discovered_in_order :
    (∀ n : Node, n.walk = n.preorder ∧ n.Listing n.walk n.addresses ∧
      ∀ k, (Search.turn^[k] (.start n)).found = n.preorder.take k ∧
        ((Search.turn^[k] (.start n)).stack = [] ↔ n.preorder.length ≤ k)) ∧
    (∀ s : Source, (registrationMaps s).Pairwise (fun x y => x.1 < y.1) ∧
      ∀ a braces, (a, braces) ∈ registrationMaps s ↔
        ∃ n, s.root.at? a = some n ∧ registrationMap? n = some braces) ∧
    ∀ sources found, mapRegistrations sources = .ok found ↔
      (∀ f ∈ registeredInMaps sources, f.1.typeName.isUnicode = true) ∧
        found = registeredInMaps sources := by
  refine ⟨fun n => ⟨n.walk_eq_preorder, n.listing_walk, fun k => ?_⟩,
    fun s => ⟨pairwise_registrationMaps s, fun _ _ => mem_registrationMaps⟩,
    fun _ _ => mapRegistrations_eq_ok_iff⟩
  rw [← n.walk_eq_preorder]
  exact ⟨(Search.turns k (.start n)).1, Search.stack_eq_nil_iff k n⟩

end ProviderCatalog.Schema
