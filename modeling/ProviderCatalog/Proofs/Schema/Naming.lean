import ProviderCatalog.Proofs.Schema.Registering

/-!
# Structures that keep different names

A public name drops the ends of the name of a structure one after the other and writes what is left
in small letters, an underscore in front of each but the first capital. Nothing but the ends is lost
in this: the underscores tell the capitals. So two structures have one public name only if the same
is left of their names, and a list of structures of which different stems are left registers each of
its elements.

## Main definitions

* `structStem`: what is left of the name of a structure.
* `IsExported`: the names of letters and digits that begin with a capital.
* `listedElements`, `structName?`: the elements of the lists that a declaration returns.

## Main results

* `camelCase_flatMap_snake`: the capitals are found again.
* `structNames_kept`: the public names of structures and of the lists that they stand in.
-/

namespace ProviderCatalog.Schema

open Go (Node Source)

variable {providerPrefix a b : Text} {c : Char} {cs : List Char}

/-! ### Capitals and underscores -/

/-- A character of a name, a small letter behind an underscore if it is a capital. -/
def snake (c : Char) : List Char := if c.isUpper then ['_', c.toLower] else [c]

/-- The characters of a name with capitals in place of the letters behind underscores. -/
def camelCase : List Char → List Char
  | '_' :: c :: cs => c.toUpper :: camelCase cs
  | c :: cs => c :: camelCase cs
  | [] => []

theorem toNat_lt_of_isAlphanum (h : c.isAlphanum = true) : c.toNat < 128 := by
  have hbound {n : UInt32} (hn : n.toNat < 128) (h : c.val ≤ n) : c.toNat < 128 :=
    Nat.lt_of_le_of_lt (UInt32.le_iff_toNat_le.mp h) hn
  rcases Bool.or_eq_true_iff.mp h with h | hdigit
  · rcases Bool.or_eq_true_iff.mp h with hcapital | hsmall
    · exact hbound (by decide) (of_decide_eq_true hcapital).2
    · exact hbound (by decide) (of_decide_eq_true (Bool.and_eq_true_iff.mp hsmall).2)
  · exact hbound (by decide) (of_decide_eq_true (Bool.and_eq_true_iff.mp hdigit).2)

/-- A look at the characters of names shows how they change their case. -/
theorem case_of_isAlphanum (h : c.isAlphanum = true) :
    c ≠ '_' ∧ (c.isUpper = true → c.toLower.toUpper = c) ∧
      (c.isUpper = false → c.toLower = c) := by
  have htable : ∀ n < 128, (Char.ofNat n).isAlphanum = true →
      Char.ofNat n ≠ '_' ∧
        ((Char.ofNat n).isUpper = true → (Char.ofNat n).toLower.toUpper = Char.ofNat n) ∧
        ((Char.ofNat n).isUpper = false → (Char.ofNat n).toLower = Char.ofNat n) := by
    decide +kernel
  simpa only [Char.ofNat_toNat, h, forall_true_left] using
    htable c.toNat (toNat_lt_of_isAlphanum h)

/-- Behind the underscores stand the letters that were capitals, and nowhere else. -/
theorem camelCase_flatMap_snake (h : ∀ c ∈ cs, c.isAlphanum = true) :
    camelCase (cs.flatMap snake) = cs := by
  induction cs with
  | nil => rfl
  | cons c cs ih =>
    obtain ⟨hc, hcs⟩ := List.forall_mem_cons.mp h
    obtain ⟨hunderscore, hupper, -⟩ := case_of_isAlphanum hc
    rw [List.flatMap_cons, snake]
    cases hcapital : c.isUpper with
    | true =>
      change c.toLower.toUpper :: camelCase (cs.flatMap snake) = c :: cs
      rw [hupper hcapital, ih hcs]
    | false =>
      change camelCase (c :: cs.flatMap snake) = c :: cs
      rw [camelCase, ih hcs]
      exact fun _ _ h _ => hunderscore h

/-! ### Names in snake case -/

theorem lowerAfter_ofChars (before : Text) (h : ∀ c ∈ cs, c.toNat < 128) :
    Text.lowerAfter before (Text.ofChars cs) = Text.ofChars (cs.map Char.toLower) := by
  induction cs generalizing before with
  | nil => rfl
  | cons c cs ih =>
    obtain ⟨hc, hcs⟩ := List.forall_mem_cons.mp h
    have hsigma : c ≠ 'Σ' := fun h => absurd (h ▸ hc) (by decide)
    change Text.lowerAfter before (.scalar c :: Text.ofChars cs) = _
    rw [Text.lowerAfter, ih _ hcs, Text.lowerChar, if_pos hc]
    · rfl
    · exact hsigma

theorem breakAtCapitals_ofChars (cs : List Char) :
    breakAtCapitals (Text.ofChars cs) =
      Text.ofChars (cs.flatMap fun c => if c.isUpper then ['_', c] else [c]) := by
  induction cs with
  | nil => rfl
  | cons c cs ih =>
    refine Eq.trans (congrArg₂ (· ++ ·) ?_ ih) List.map_append.symm
    change (if c.isUpper = true then _ else _) = Text.ofChars (if c.isUpper = true then _ else _)
    cases c.isUpper <;> rfl

/-- A name in snake case begins with its first letter and goes on with underscores and letters. -/
theorem snakeCase_ofChars (h : ∀ d ∈ c :: cs, d.isAlphanum = true) :
    snakeCase (Text.ofChars (c :: cs)) = Text.ofChars (c.toLower :: cs.flatMap snake) := by
  have hascii : ∀ d ∈ c :: cs.flatMap fun d => if d.isUpper then ['_', d] else [d],
      d.toNat < 128 := by
    refine List.forall_mem_cons.mpr ⟨toNat_lt_of_isAlphanum (h c List.mem_cons_self), ?_⟩
    refine List.forall_mem_flatMap.mpr fun d hd => ?_
    have hsmall : d.toNat < 128 := toNat_lt_of_isAlphanum (h d (List.mem_cons_of_mem _ hd))
    cases d.isUpper
    · exact List.forall_mem_singleton.mpr hsmall
    · exact List.forall_mem_cons.mpr ⟨by decide, List.forall_mem_singleton.mpr hsmall⟩
  change Text.lowerAfter [] (.scalar c :: breakAtCapitals (Text.ofChars cs)) = _
  rw [breakAtCapitals_ofChars]
  refine (lowerAfter_ofChars [] hascii).trans (congrArg (fun t => Text.ofChars (_ :: t)) ?_)
  rw [List.map_flatMap]
  refine List.flatMap_congr fun d hd => ?_
  obtain ⟨-, -, hlower⟩ := case_of_isAlphanum (h d (List.mem_cons_of_mem _ hd))
  rw [snake]
  cases hd : d.isUpper with
  | true => rfl
  | false => exact congrArg ([·]) (hlower hd)

/-- Exported names: letters and digits, of which the first is a capital. -/
def IsExported (name : Text) : Prop :=
  ∃ c cs, name = Text.ofChars (c :: cs) ∧ c.isUpper = true ∧ ∀ d ∈ cs, d.isAlphanum = true

theorem isAlphanum_of_isUpper (h : c.isUpper = true) : c.isAlphanum = true := by
  change (c.isUpper || c.isLower || c.isDigit) = true
  rw [h]
  rfl

/-- Different exported names are different in snake case. -/
theorem IsExported.eq_of_snakeCase_eq (ha : IsExported a) (hb : IsExported b)
    (h : snakeCase a = snakeCase b) : a = b := by
  obtain ⟨c, cs, rfl, hc, hcs⟩ := ha
  obtain ⟨d, ds, rfl, hd, hds⟩ := hb
  have hccs : ∀ e ∈ c :: cs, e.isAlphanum = true :=
    List.forall_mem_cons.mpr ⟨isAlphanum_of_isUpper hc, hcs⟩
  have hdds : ∀ e ∈ d :: ds, e.isAlphanum = true :=
    List.forall_mem_cons.mpr ⟨isAlphanum_of_isUpper hd, hds⟩
  -- one more underscore in front makes the first capital one like the others
  have hsnake {e : Char} {es : List Char} (he : e.isUpper = true) :
      (e :: es).flatMap snake = '_' :: e.toLower :: es.flatMap snake := by
    rw [List.flatMap_cons, snake, if_pos he]
    rfl
  rw [snakeCase_ofChars hccs, snakeCase_ofChars hdds] at h
  have hsame : (c :: cs).flatMap snake = (d :: ds).flatMap snake := by
    rw [hsnake hc, hsnake hd]
    exact congrArg _ (List.map_injective_iff.mpr (fun _ _ => CodePoint.scalar.inj) h)
  rw [← camelCase_flatMap_snake hccs, hsame, camelCase_flatMap_snake hdds]

/-! ### Names without their ends -/

/-- What is left of the name of a structure without the ends that public names drop. -/
def structStem (name : Text) : Text := structSuffixes.foldl Text.dropSuffix name

theorem dropSuffix_isPrefix (t s : Text) : t.dropSuffix s <+: t := by
  rw [Text.dropSuffix, Text.dropSuffix?]
  split
  · exact List.take_prefix _ _
  · exact List.prefix_rfl

theorem dropSuffix_append (t s : Text) : Text.dropSuffix (t ++ s) s = t := by
  rw [Text.dropSuffix, Text.dropSuffix?, if_pos (List.isSuffixOf_iff_suffix.mpr ⟨t, rfl⟩)]
  simp

theorem dropSuffix_of_not_suffix {t s : Text} (h : ¬s <:+ t) : t.dropSuffix s = t := by
  rw [Text.dropSuffix, Text.dropSuffix?, if_neg fun hs => h (List.isSuffixOf_iff_suffix.mp hs)]
  rfl

theorem structStem_isPrefix (name : Text) : structStem name <+: name := by
  have hfold (suffixes : List Text) : ∀ t : Text, suffixes.foldl Text.dropSuffix t <+: t := by
    induction suffixes with
    | nil => exact fun t => List.prefix_rfl
    | cons s suffixes ih => exact fun t => (ih _).trans (dropSuffix_isPrefix t s)
  exact hfold structSuffixes name

/-- Of a name with the first end, what stands before it is left if it has no other end. -/
theorem structStem_append_resource {t : Text} (h : ∀ s ∈ structSuffixes.tail, ¬s <:+ t) :
    structStem (t ++ "Resource") = t := by
  have hfold (suffixes : List Text) (hs : ∀ s ∈ suffixes, ¬s <:+ t) :
      suffixes.foldl Text.dropSuffix t = t := by
    induction suffixes with
    | nil => rfl
    | cons s suffixes ih =>
      obtain ⟨hs, hrest⟩ := List.forall_mem_cons.mp hs
      rw [List.foldl_cons, dropSuffix_of_not_suffix hs, ih hrest]
  rw [structStem, structSuffixes, List.foldl_cons, dropSuffix_append]
  exact hfold _ h

/-- What is left of an exported name is one, unless nothing is. -/
theorem IsExported.structStem (h : IsExported a) (hne : structStem a ≠ []) :
    IsExported (structStem a) := by
  obtain ⟨c, cs, rfl, hc, hcs⟩ := h
  have hstart := structStem_isPrefix (Text.ofChars (c :: cs))
  rw [List.prefix_iff_eq_take] at hstart
  cases hn : (Schema.structStem (Text.ofChars (c :: cs))).length with
  | zero => exact absurd (List.length_eq_zero_iff.mp hn) hne
  | succ n =>
    rw [hn] at hstart
    refine ⟨c, cs.take n, ?_, hc, fun d hd => hcs d (List.mem_of_mem_take hd)⟩
    rw [hstart, Text.ofChars, Text.ofChars, List.map_cons, List.map_cons, List.take_succ_cons,
      List.map_take]

theorem resourceName_eq (structName providerPrefix : Text) :
    resourceName structName providerPrefix =
      if (structStem structName).isEmpty then []
      else providerPrefix ++ ("_" : Text) ++ snakeCase (structStem structName) :=
  rfl

theorem resourceName_eq_nil_iff : resourceName a providerPrefix = [] ↔ structStem a = [] := by
  rw [resourceName_eq]
  generalize structStem a = stem
  cases stem with
  | nil => exact iff_of_true rfl rfl
  | cons p t =>
    refine iff_of_false (fun h => ?_) (List.cons_ne_nil p t)
    exact List.cons_ne_nil _ _ (List.append_eq_nil_iff.mp (List.append_eq_nil_iff.mp h).1).2

/-- Two structures have one public name if the same is left of their names. -/
theorem resourceName_eq_iff (ha : IsExported a) (hb : IsExported b) :
    resourceName a providerPrefix = resourceName b providerPrefix ↔
      structStem a = structStem b := by
  refine ⟨fun h => ?_, fun h => by rw [resourceName_eq, resourceName_eq, h]⟩
  by_cases hstem : structStem a = []
  · rw [resourceName_eq_nil_iff.mpr hstem] at h
    rw [hstem, resourceName_eq_nil_iff.mp h.symm]
  · have hstem' : structStem b ≠ [] := fun hb =>
      hstem (resourceName_eq_nil_iff.mp (h.trans (resourceName_eq_nil_iff.mpr hb)))
    rw [resourceName_eq, resourceName_eq, if_neg (by simpa using hstem),
      if_neg (by simpa using hstem')] at h
    exact (ha.structStem hstem).eq_of_snakeCase_eq (hb.structStem hstem')
      (List.append_cancel_left h)

/-! ### Lists of structures -/

/-- The elements of the lists that a declaration returns. -/
def listedElements (declaration : Node) : List Node :=
  (declaration.bodyStatements.filter (·.kind == .returnStatement)).flatMap fun s =>
    match s.returnValues.head?.bind Node.literalBody? with
    | some b => b.listElements
    | none => []

/-- The name of the structure that an element of a list is, if it is one. -/
def structName? (element : Node) : Option Text := do
  let t ← if element.kind == .compositeLiteral then element.child? .type else some element
  if t.kind == .identifier || t.kind == .typeIdentifier then some t.text else none

theorem elementName?_eq_bind (providerPrefix : Text) (element : Node) :
    elementName? providerPrefix element = (structName? element).bind fun n =>
      if (resourceName n providerPrefix).isEmpty then none
      else some (resourceName n providerPrefix) := by
  have hnamed (t : Node) :
      (if t.kind == .identifier || t.kind == .typeIdentifier then
        if (resourceName t.text providerPrefix).isEmpty then none
        else some (resourceName t.text providerPrefix)
      else none) =
      (if t.kind == .identifier || t.kind == .typeIdentifier then some t.text else none).bind
        fun n => if (resourceName n providerPrefix).isEmpty then none
          else some (resourceName n providerPrefix) := by
    split <;> rfl
  rw [elementName?, structName?]
  split
  · cases element.child? .type with
    | none => rfl
    | some t => exact hnamed t
  · exact hnamed element

theorem listedNames_eq_filterMap (providerPrefix : Text) (declaration : Node) :
    listedNames providerPrefix declaration =
      (listedElements declaration).filterMap (elementName? providerPrefix) := by
  rw [listedNames, listedElements, List.filterMap_flatMap]
  refine List.flatMap_congr fun s _ => ?_
  cases s.returnValues.head?.bind Node.literalBody? <;> rfl

/-- The names in a list of structures of each of which a stem is left. -/
theorem filterMap_elementName? {elements : List Node} {names : List Text}
    (hnames : elements.map structName? = names.map some) (hstems : ∀ n ∈ names, structStem n ≠ []) :
    elements.filterMap (elementName? providerPrefix) =
      names.map fun n => resourceName n providerPrefix := by
  induction names generalizing elements with
  | nil =>
    rw [List.map_eq_nil_iff.mp hnames]
    rfl
  | cons n names ih =>
    obtain ⟨e, elements, rfl, he, helements⟩ := List.map_eq_cons_iff.mp hnames
    obtain ⟨hn, hstems⟩ := List.forall_mem_cons.mp hstems
    have hname : (resourceName n providerPrefix).isEmpty = false :=
      List.isEmpty_eq_false_iff.mpr (resourceName_eq_nil_iff.not.mpr hn)
    have hentry : elementName? providerPrefix e = some (resourceName n providerPrefix) := by
      rw [elementName?_eq_bind, he, Option.bind_some, hname]
      rfl
    rw [List.filterMap_cons, hentry, ih helements hstems, List.map_cons]

/-- Public names under which different structures are listed are different. -/
theorem nodup_map_resourceName {names : List Text} (hexported : ∀ n ∈ names, IsExported n)
    (h : (names.map structStem).Nodup) :
    (names.map fun n => resourceName n providerPrefix).Nodup := by
  refine (List.nodup_map_iff_inj_on (h.of_map _)).mpr fun a ha b hb hab => ?_
  exact List.inj_on_of_nodup_map h ha hb
    ((resourceName_eq_iff (hexported a ha) (hexported b hb)).mp hab)

/-- Of the keys of the registrations that are discovered, each is that of one that is found. -/
theorem length_filter_firstOfKeys {all : List Found} {keys : List (Text × ResourceKind)}
    (hkeys : keys.Nodup) (h : keys ⊆ all.map (·.1.key)) :
    ((firstOfKeys [] all).filter fun f => f.1.key ∈ keys).length = keys.length := by
  have hperm : (((firstOfKeys [] all).map (·.1.key)).filter (· ∈ keys)).Perm keys := by
    refine (List.perm_ext_iff_of_nodup ((nodup_firstOfKeys [] all).filter _) hkeys).mpr fun k => ?_
    rw [List.mem_filter, mem_keys_firstOfKeys, decide_eq_true_eq]
    exact ⟨And.right, fun hk => ⟨⟨h hk, List.not_mem_nil⟩, hk⟩⟩
  rw [← hperm.length_eq, List.filter_map, List.length_map]
  rfl

/-- The key of each element of a list of structures is discovered. -/
theorem mem_keys_discovered {sources : List Source} {s : Source} {d : Node} {kind : ResourceKind}
    (hs : s ∈ sources) (hd : d ∈ s.functions.map (·.2) ++ s.methods)
    (hkind : listKind? d = some kind) {name : Text} (hname : name ∈ listedNames providerPrefix d) :
    (name, kind) ∈ (discovered providerPrefix sources).map (·.1.key) := by
  have hentry : (name, kind) ∈ listEntries providerPrefix s := by
    refine List.mem_flatMap.mpr ⟨d, hd, ?_⟩
    rw [hkind]
    exact List.mem_map_of_mem hname
  rw [discovered, discoveredInLists_eq, List.map_append, List.map_flatMap]
  refine List.mem_append_right _ (List.mem_flatMap.mpr ⟨s, hs, ?_⟩)
  rw [List.map_map]
  exact List.mem_map.mpr ⟨(name, kind), hentry, rfl⟩

/-- Two structures have different public names just if different stems are left of their names, and
of a name with the first end what stands before it is the stem if it has no other end. A list of
structures of which different stems are left yields as many registrations as it has elements. -/
theorem structNames_kept (providerPrefix : Text) :
    (∀ a b, IsExported a → IsExported b →
      (resourceName a providerPrefix ≠ resourceName b providerPrefix ↔
        structStem a ≠ structStem b)) ∧
    (∀ t : Text, (∀ s ∈ structSuffixes.tail, ¬s <:+ t) → structStem (t ++ "Resource") = t) ∧
    ∀ (sources : List Source), ∀ s ∈ sources, ∀ d ∈ s.functions.map (·.2) ++ s.methods,
      ∀ (kind : ResourceKind) (names : List Text), listKind? d = some kind →
        (listedElements d).map structName? = names.map some →
        (∀ n ∈ names, IsExported n ∧ structStem n ≠ []) → (names.map structStem).Nodup →
        (∀ f ∈ discovered providerPrefix sources, f.1.typeName.isUnicode = true) →
        ∃ found, registrations providerPrefix sources = .ok found ∧
          (found.filter fun f =>
            f.1.key ∈ names.map fun n => (resourceName n providerPrefix, kind)).length =
              (listedElements d).length := by
  refine ⟨fun a b ha hb => (resourceName_eq_iff ha hb).not, fun t => structStem_append_resource,
    fun sources s hs d hd kind names hkind hnames hproper hnodup hunicode => ?_⟩
  have hisOk := registrations_isOk_iff.mpr hunicode
  cases hfound : registrations providerPrefix sources with
  | error i => exact absurd hisOk (hfound ▸ Bool.false_ne_true)
  | ok found =>
    refine ⟨found, rfl, ?_⟩
    have hlisted :
        listedNames providerPrefix d = names.map fun n => resourceName n providerPrefix := by
      rw [listedNames_eq_filterMap, filterMap_elementName? hnames fun n hn => (hproper n hn).2]
    have hkeys : (names.map fun n => (resourceName n providerPrefix, kind)).Nodup := by
      have h : (names.map fun n => resourceName n providerPrefix).Nodup :=
        nodup_map_resourceName (fun n hn => (hproper n hn).1) hnodup
      simpa only [List.map_map, Function.comp_def] using
        h.map (f := fun n => (n, kind)) fun _ _ => congrArg Prod.fst
    have hmem : (names.map fun n => (resourceName n providerPrefix, kind)) ⊆
        (discovered providerPrefix sources).map (·.1.key) := fun k hk => by
      obtain ⟨n, hn, rfl⟩ := List.mem_map.mp hk
      exact mem_keys_discovered hs hd hkind (hlisted ▸ List.mem_map_of_mem hn)
    have hlength : names.length = (listedElements d).length := by
      simpa using (congrArg List.length hnames).symm
    rw [registrations_eq_ok hfound, length_filter_firstOfKeys hkeys hmem, List.length_map, hlength]

/-- A list of two structures, of the names of which one has two of the ends. -/
def twoStructures : RepositoryFile :=
  ⟨1, "a.go", "a.go", "go",
    "package p\n\nfunc (r R) Resources() []sdk.Resource \x7b\n" ++
      "\treturn []sdk.Resource\x7bImageListResource\x7b\x7d, DiskResource\x7b\x7d\x7d\n\x7d\n", 1⟩

set_option maxRecDepth 100000 in
private theorem twoStructures_listed :
    ∃ s d, [twoStructures].filterMap source? = [s] ∧ s.methods = [d] ∧
      listKind? d = some .resource ∧
      (listedElements d).map structName? =
        [some ("ImageListResource" : Text), some ("DiskResource" : Text)] ∧
      ∀ f ∈ discovered "azurerm" [s], f.1.typeName.isUnicode = true := by
  have hone : ([twoStructures].filterMap source?).length = 1 := by decide +kernel
  have hall : ([twoStructures].filterMap source?).all (fun s =>
      s.methods.length == 1 && s.methods.all fun d => decide (listKind? d = some .resource ∧
        (listedElements d).map structName? =
          [some ("ImageListResource" : Text), some ("DiskResource" : Text)] ∧
        ∀ f ∈ discovered "azurerm" [s], f.1.typeName.isUnicode = true)) = true := by
    decide +kernel
  obtain ⟨s, hs⟩ := List.length_eq_one_iff.mp hone
  rw [hs, List.all_cons, List.all_nil, Bool.and_true, Bool.and_eq_true, beq_iff_eq] at hall
  obtain ⟨hmethods, hlisted⟩ := hall
  obtain ⟨d, hd⟩ := List.length_eq_one_iff.mp hmethods
  rw [hd, List.all_cons, List.all_nil, Bool.and_true] at hlisted
  exact ⟨s, d, hs, hd, of_decide_eq_true hlisted⟩

/-- A list of two structures yields two registrations. -/
theorem structNames_kept_of_two :
    resourceName "ImageListResource" "azurerm" ≠ resourceName "DiskResource" "azurerm" ∧
      structStem (("Disk" : Text) ++ ("Resource" : Text)) = "Disk" ∧
      ∃ s d found, [twoStructures].filterMap source? = [s] ∧ s.methods = [d] ∧
        registrations "azurerm" [s] = .ok found ∧
        (found.filter fun f => f.1.key ∈ [(("azurerm_image" : Text), ResourceKind.resource),
          (("azurerm_disk" : Text), ResourceKind.resource)]).length = 2 := by
  have himage : IsExported "ImageListResource" :=
    ⟨'I', "mageListResource".toList, rfl, rfl, List.all_eq_true.mp rfl⟩
  have hdisk : IsExported "DiskResource" :=
    ⟨'D', "iskResource".toList, rfl, rfl, List.all_eq_true.mp rfl⟩
  have hproper : ∀ n ∈ [("ImageListResource" : Text), "DiskResource"],
      IsExported n ∧ structStem n ≠ [] :=
    List.forall_mem_cons.mpr ⟨⟨himage, by decide⟩,
      List.forall_mem_singleton.mpr ⟨hdisk, by decide⟩⟩
  obtain ⟨hnames, hstem, hlists⟩ := structNames_kept "azurerm"
  obtain ⟨s, d, hs, hd, hkind, hlisted, hunicode⟩ := twoStructures_listed
  obtain ⟨found, hfound, hlength⟩ := hlists [s] s List.mem_cons_self d
    (List.mem_append_right _ (hd ▸ List.mem_cons_self)) .resource
    ["ImageListResource", "DiskResource"] hkind hlisted hproper (by decide) hunicode
  refine ⟨(hnames _ _ himage hdisk).mpr (by decide), hstem "Disk" (by decide), s, d, found, hs, hd,
    hfound, ?_⟩
  have hcount : (listedElements d).length = 2 := by
    simpa using congrArg List.length hlisted
  exact hcount ▸ hlength

/-- The names of different structures need not be different: one may have an end more. -/
theorem structNames_lost :
    ¬∀ (providerPrefix a b part part' : Text), IsExported a → IsExported b → a ≠ b →
      a = part ++ ("Resource" : Text) → part ≠ [] → b = part' ++ ("Resource" : Text) →
        part' ≠ [] → resourceName a providerPrefix ≠ resourceName b providerPrefix := by
  intro h
  have hlist : IsExported "ImageListResource" :=
    ⟨'I', "mageListResource".toList, rfl, rfl, List.all_eq_true.mp rfl⟩
  have himage : IsExported "ImageResource" :=
    ⟨'I', "mageResource".toList, rfl, rfl, List.all_eq_true.mp rfl⟩
  exact h "azurerm" "ImageListResource" "ImageResource" "ImageList" "Image" hlist himage (by decide)
    (by decide) (by decide) (by decide) (by decide) (by decide)

end ProviderCatalog.Schema
