import ProviderCatalog.Proofs.Store.Rows
import ProviderCatalog.Proofs.Store.Storing
import ProviderCatalog.Proofs.Sync.Actions

/-!
# Indexing services and resources

The services and the resources of a repository are stored row by row. A row that is refused is
passed over, and with a resource everything that belongs to it, while all other rows are stored.
Rows are stored under their keys, so the last row of each key is the one that stays.

## Main definitions

* `ServiceFits`, `AttributeFits`, `ResourceFits`: the values of rows fit into their columns.
* `RowsIndexed`: rows of a table were stored one after the other, refused ones passed over.
* `HasResource`: a resource is stored with everything that belongs to it.

## Main results

* `indexAttributes_attempts`, `indexResources_attempts`, `indexServices_attempts`: the rows that are
  stored.
-/

namespace ProviderCatalog

open Schema (Attribute Resource ResourceKind Service SnippetBundle)
open Store (Kind Operation Param Row Table Tables)

namespace Sync

variable {σ : State} {t u : Tables} {refused : List Operation}

/-! ### Rows that fit -/

/-- The values of a service fit into their columns. -/
def ServiceFits (s : Service) : Prop := Param.bind (Param.ofService ⟨1, .ofService s⟩) = .ok ()

/-- The values of an attribute fit into their columns. -/
def AttributeFits (a : Attribute) : Prop := Param.bind (Param.ofAttribute ⟨1, a⟩) = .ok ()

/-- The values of a source fit into their columns. -/
def SourceFits (x : SnippetBundle) : Prop := Param.bind (Param.ofSource ⟨1, x⟩) = .ok ()

/-- The values of a resource fit into their columns, and so do those of its attributes and its
source that are attempted to be stored. -/
structure ResourceFits (refused : List Operation) (r : Resource) : Prop where
  row : Param.bind (Param.ofResource ⟨1, .ofResource r none⟩) = .ok ()
  attributes : refused.contains .insertAttribute = false → ∀ a ∈ r.attributes, AttributeFits a
  source : refused.contains .insertSource = false → ∀ x ∈ r.source, SourceFits x

instance (s : Service) : Decidable (ServiceFits s) :=
  inferInstanceAs (Decidable (_ = _))

instance (a : Attribute) : Decidable (AttributeFits a) :=
  inferInstanceAs (Decidable (_ = _))

instance (x : SnippetBundle) : Decidable (SourceFits x) :=
  inferInstanceAs (Decidable (_ = _))

/-- The numbers of items of an attribute that fits need no more than 64 bits. -/
theorem AttributeFits.items {a : Attribute} (h : AttributeFits a) :
    (∀ n ∈ a.maxItems, n < 2 ^ 63) ∧ ∀ n ∈ a.minItems, n < 2 ^ 63 := by
  constructor
  · intro n hn
    have hfits := Param.fits_of_bind h (p := Param.ofNumber? a.maxItems)
      (by simp [Param.ofAttribute])
    rw [Option.mem_def.mp hn] at hfits
    exact (Param.fits_iff.mp hfits).2
  · intro n hn
    have hfits := Param.fits_of_bind h (p := Param.ofNumber? a.minItems)
      (by simp [Param.ofAttribute])
    rw [Option.mem_def.mp hn] at hfits
    exact (Param.fits_iff.mp hfits).2

theorem resourceFits_iff (refused : List Operation) (r : Resource) :
    ResourceFits refused r ↔ Param.bind (Param.ofResource ⟨1, .ofResource r none⟩) = .ok () ∧
      (refused.contains .insertAttribute = false → ∀ a ∈ r.attributes, AttributeFits a) ∧
      (refused.contains .insertSource = false → ∀ x ∈ r.source, SourceFits x) :=
  ⟨fun h => ⟨h.row, h.attributes, h.source⟩, fun h => ⟨h.1, h.2.1, h.2.2⟩⟩

instance (refused : List Operation) (r : Resource) : Decidable (ResourceFits refused r) :=
  decidable_of_iff' _ (resourceFits_iff refused r)

/-! ### Single rows -/

/-- What the warning about a refused service begins with. -/
def aboutService (s : Service) : Text := "Failed to persist service " ++ s.name

/-- What the warning about a refused resource begins with. -/
def aboutResource (r : Resource) : Text := "Failed to persist provider resource " ++ r.name

/-- What the warning about a refused attribute begins with. -/
def aboutAttribute (resource : Text) (a : Attribute) : Text :=
  ("Failed to persist attribute " : Text) ++ a.name ++ " on " ++ resource

/-- What the warning about a refused source begins with. -/
def aboutSource (resource : Text) : Text := "Failed to store source snippet for " ++ resource

section Rows

variable {id n : Int} {link : Option Int}

/-- Whether a row fits does not depend on its owner. -/
private theorem bind_renumbered (hn : (Param.number n).fault? = none) (ps : List Param) :
    Param.bind (.number n :: ps) = Param.bind (.number 1 :: ps) :=
  (Param.bind_of_fits hn ps).trans (Param.bind_of_fits Param.fits_one ps).symm

/-- Nor does it depend on the service that a resource is linked to. -/
private theorem bind_ofResource (hn : (Param.number n).fault? = none) (r : Resource)
    (hlink : ∀ s ∈ link, (Param.number s).fault? = none) :
    Param.bind (Param.ofResource ⟨n, .ofResource r link⟩) =
      Param.bind (Param.ofResource ⟨1, .ofResource r none⟩) := by
  refine (bind_renumbered hn _).trans ?_
  cases link with
  | none => rfl
  | some s =>
    have hs : (Param.ofNumber? (some s)).fault? = none := hlink s rfl
    have hnone : (Param.ofNumber? none).fault? = none := rfl
    exact (Param.bind_of_two_fit Param.fits_one hs _).trans
      (Param.bind_of_two_fit Param.fits_one hnone _).symm

private theorem insertService_attempts (s : Service) (ht : σ.store.tables = some t) (h : t.Valid)
    (howner : t.repositories.has id = true) (hid : (Param.number id).fault? = none) :
    Attempts (orWarn (aboutService s) (writing (·.insertService id s))) σ
      (σ.store.outOfOrder.contains .insertService = false → ServiceFits s)
      (Attempted σ.store.outOfOrder .insertService (aboutService s) t
        fun n u => t.Stores .services ⟨id, .ofService s⟩ n u) := by
  have hput : Param.bind (Param.ofService ⟨id, .ofService s⟩) =
      Param.bind (Param.ofService ⟨1, .ofService s⟩) :=
    bind_renumbered hid _
  refine write_attempts _ ht (fun hfits => ?_) (fun hnot => ?_)
  · obtain ⟨u, n, hu, hstores⟩ := h.putService_stores howner (hput.trans hfits)
    exact ⟨u, n, hu, hstores⟩
  · exact Tables.putService_fails howner (hput ▸ hnot)

private theorem insertResource_attempts (r : Resource) (ht : σ.store.tables = some t)
    (h : t.Valid) (howner : t.repositories.has id = true)
    (hid : (Param.number id).fault? = none) (hlink : ∀ s, link = some s → t.services.has s = true)
    (hservices : t.services.last < 2 ^ 63) :
    Attempts (orWarn (aboutResource r) (writing (·.insertResource id r link))) σ
      (σ.store.outOfOrder.contains .insertResource = false →
        Param.bind (Param.ofResource ⟨1, .ofResource r none⟩) = .ok ())
      (Attempted σ.store.outOfOrder .insertResource (aboutResource r) t
        fun n u => t.Stores .resources ⟨id, .ofResource r link⟩ n u) := by
  have hput : Param.bind (Param.ofResource ⟨id, .ofResource r link⟩) =
      Param.bind (Param.ofResource ⟨1, .ofResource r none⟩) := by
    exact bind_ofResource hid r fun s hs => h.services.fits_of_has (hlink s hs) hservices
  refine write_attempts _ ht (fun hfits => ?_) (fun hnot => ?_)
  · obtain ⟨u, n, hu, hstores⟩ := h.putResource_stores howner hlink (hput.trans hfits)
    exact ⟨u, n, hu, hstores⟩
  · exact Tables.putResource_fails howner (hput ▸ hnot)

private theorem insertAttribute_attempts (resource : Text) (a : Attribute)
    (ht : σ.store.tables = some t) (h : t.Valid) (howner : t.resources.has n = true)
    (hn : (Param.number n).fault? = none) :
    Attempts (orWarn (aboutAttribute resource a) (updating (·.insertAttribute n a))) σ
      (σ.store.outOfOrder.contains .insertAttribute = false → AttributeFits a)
      (Attempted σ.store.outOfOrder .insertAttribute (aboutAttribute resource a) t
        fun _ u => ∃ m, t.Stores .attributes ⟨n, a⟩ m u) := by
  have hput : Param.bind (Param.ofAttribute ⟨n, a⟩) = Param.bind (Param.ofAttribute ⟨1, a⟩) :=
    bind_renumbered hn _
  refine update_attempts _ ht (fun hfits => ?_) (fun hnot => ?_)
  · obtain ⟨u, m, hu, hstores⟩ := h.putAttribute_stores howner (hput.trans hfits)
    exact ⟨u, hu, m, hstores⟩
  · exact Tables.putAttribute_fails (hput ▸ hnot)

private theorem insertSource_attempts (resource : Text) (x : SnippetBundle)
    (ht : σ.store.tables = some t) (h : t.Valid) (howner : t.resources.has n = true)
    (hn : (Param.number n).fault? = none) :
    Attempts (orWarn (aboutSource resource) (updating (·.insertSource n x))) σ
      (σ.store.outOfOrder.contains .insertSource = false → SourceFits x)
      (Attempted σ.store.outOfOrder .insertSource (aboutSource resource) t
        fun _ u => ∃ m, t.Stores .sources ⟨n, x⟩ m u) := by
  have hput : Param.bind (Param.ofSource ⟨n, x⟩) = Param.bind (Param.ofSource ⟨1, x⟩) :=
    bind_renumbered hn _
  refine update_attempts _ ht (fun hfits => ?_) (fun hnot => ?_)
  · obtain ⟨u, m, hu, hstores⟩ := h.putSource_stores howner (hput.trans hfits)
    exact ⟨u, hu, m, hstores⟩
  · exact Tables.putSource_fails (hput ▸ hnot)

end Rows

/-! ### Rows one after the other -/

/-- The tables before and after rows of a table were stored one after the other, refused ones passed
over. -/
structure RowsIndexed (refused : List Operation) (o : Operation) (k : Kind) (rows : List k.Value)
    (abouts : List Text) (t t' : Tables) (lines : List LogLine) : Prop where
  valid : t'.Valid
  elsewhere : ∀ j, j ≠ k → t'.table j = t.table j
  last : (t'.table k).last ≤ (t.table k).last + rows.length
  numbers : ∀ m, (t.table k).has m = true → (t'.table k).has m = true
  stored : refused.contains o = false → ∀ a, IsLast k.key a rows → t'.Has k a
  kept : ∀ b, (∀ a ∈ rows, k.key b ≠ k.key a) → t.Has k b → t'.Has k b
  /-- Rows whose keys are new and differ stand after all others. -/
  appended : refused.contains o = false → k.Distinct ((t.table k).values ++ rows) →
    (t'.table k).values = (t.table k).values ++ rows
  lines : lines = refusals refused o abouts

namespace RowsIndexed

variable {α : Type} {o : Operation} {k : Kind} {a : k.Value} {as : List k.Value} {about : Text}
  {abouts : List Text}

theorem nil (refused : List Operation) (o : Operation) (k : Kind) (h : t.Valid) :
    RowsIndexed refused o k [] [] t t [] where
  valid := h
  elsewhere _ _ := rfl
  last := by simp
  numbers _ hm := hm
  stored _ _ ha := absurd ha not_isLast_nil
  kept _ _ hb := hb
  appended _ _ := (List.append_nil _).symm
  lines := (refusals_nil refused o).symm

theorem single {S : α → Tables → Prop} {x : Option α} {first : List LogLine} (h : t.Valid)
    (hrow : Attempted refused o about t S x u first)
    (hstores : ∀ y u, S y u → ∃ n, t.Stores k a n u) :
    RowsIndexed refused o k [a] [about] t u first := by
  rcases hrow.outcome with ⟨hout, -, rfl⟩ | ⟨horder, y, -, hS⟩
  · refine ⟨h, fun _ _ => rfl, ?_, fun _ hm => hm, fun horder => ?_, fun _ _ hb => hb,
      fun horder => ?_, hrow.lines⟩
    · rw [List.length_singleton]
      omega
    · exact nomatch hout.symm.trans horder
    · exact nomatch hout.symm.trans horder
  · obtain ⟨n, hstores⟩ := hstores y u hS
    refine ⟨hstores.valid, hstores.upserted.elsewhere, Int.le_of_eq hstores.last,
      fun m hm => hstores.has_number hm, fun _ b hb => ?_, fun b hb hthere => ?_,
      fun _ hdistinct => hstores.values_append hdistinct, hrow.lines⟩
    · rcases isLast_cons.mp hb with ⟨rfl, -⟩ | hb
      · exact hstores.has
      · exact absurd hb not_isLast_nil
    · exact hstores.has_kept (hb a List.mem_cons_self) hthere

/-- A row and the rows after it. -/
theorem cons {t' : Tables} {first more : List LogLine}
    (hfirst : RowsIndexed refused o k [a] [about] t u first)
    (hrest : RowsIndexed refused o k as abouts u t' more) :
    RowsIndexed refused o k (a :: as) (about :: abouts) t t' (first ++ more) where
  valid := hrest.valid
  elsewhere j hj := (hrest.elsewhere j hj).trans (hfirst.elsewhere j hj)
  last := by
    have hfirst := hfirst.last
    have hrest := hrest.last
    rw [List.length_singleton] at hfirst
    rw [List.length_cons]
    omega
  numbers m hm := hrest.numbers m (hfirst.numbers m hm)
  stored horder b hb := by
    rcases isLast_cons.mp hb with ⟨rfl, hlater⟩ | hb
    · have hthere := hfirst.stored horder b ⟨[], [], rfl, List.forall_mem_nil _⟩
      exact hrest.kept b (fun c hc => (hlater c hc).symm) hthere
    · exact hrest.stored horder b hb
  kept b hb hthere := by
    obtain ⟨ha, hothers⟩ := List.forall_mem_cons.mp hb
    exact hrest.kept b hothers (hfirst.kept b (List.forall_mem_singleton.mpr ha) hthere)
  appended horder hdistinct := by
    rw [List.append_cons] at hdistinct ⊢
    have hvalues := hfirst.appended horder (List.pairwise_append.mp hdistinct).1
    rw [← hvalues] at hdistinct ⊢
    exact hrest.appended horder hdistinct
  lines := by rw [hfirst.lines, hrest.lines, ← refusals_cons]

end RowsIndexed

/-! ### Attributes and sources -/

section Attributes

variable {n : Int}

/-- The attributes of a resource are stored one after the other. -/
theorem indexAttributes_attempts (resource : Text) (as : List Attribute)
    (ht : σ.store.tables = some t) (h : t.Valid) (howner : t.resources.has n = true)
    (hn : (Param.number n).fault? = none) :
    Attempts (indexAttributes n resource as) σ
      (σ.store.outOfOrder.contains .insertAttribute = false → ∀ a ∈ as, AttributeFits a)
      fun _ => RowsIndexed σ.store.outOfOrder .insertAttribute .attributes (as.map (⟨n, ·⟩))
        (as.map (aboutAttribute resource)) t := by
  induction as generalizing σ t with
  | nil => exact .pure ht (fun _ a ha => nomatch ha) (.nil _ _ _ h)
  | cons a as ih =>
    refine (insertAttribute_attempts resource a ht h howner hn).cons fun x u first hx => ?_
    have hrow := RowsIndexed.single h hx fun _ _ hS => hS
    have hsame : u.resources = t.resources := hrow.elsewhere .resources nofun
    exact (ih (σ := σ.carried u first) rfl hrow.valid (hsame ▸ howner)).mono Iff.rfl
      fun _ t' more hrest => hrow.cons hrest

end Attributes

/-- The warnings about attributes and a source that are refused. -/
def partRefusals (refused : List Operation) (r : Resource) : List LogLine :=
  refusals refused .insertAttribute (r.attributes.map (aboutAttribute r.name)) ++
    refusals refused .insertSource (r.source.toList.map fun _ => aboutSource r.name)

/-- The tables before and after the attributes and the source of a resource were stored. -/
structure PartsIndexed (refused : List Operation) (n : Int) (r : Resource) (t t' : Tables)
    (lines : List LogLine) : Prop where
  valid : t'.Valid
  elsewhere : ∀ k, k ≠ .attributes → k ≠ .sources → t'.table k = t.table k
  attributes : refused.contains .insertAttribute = false →
    ∀ a, IsLast (·.name) a r.attributes → t'.Has .attributes ⟨n, a⟩
  source : refused.contains .insertSource = false → ∀ x ∈ r.source, t'.Has .sources ⟨n, x⟩
  attributesKept : ∀ p : Kind.Value .attributes, p.owner ≠ n →
    t.Has .attributes p → t'.Has .attributes p
  sourcesKept : ∀ p : Kind.Value .sources, p.owner ≠ n → t.Has .sources p → t'.Has .sources p
  attributesAppended : refused.contains .insertAttribute = false →
    Kind.Distinct .attributes (t.attributes.values ++ r.attributes.map (⟨n, ·⟩)) →
      t'.attributes.values = t.attributes.values ++ r.attributes.map (⟨n, ·⟩)
  sourcesAppended : refused.contains .insertSource = false →
    Kind.Distinct .sources (t.sources.values ++ r.source.toList.map (⟨n, ·⟩)) →
      t'.sources.values = t.sources.values ++ r.source.toList.map (⟨n, ·⟩)
  lines : lines = partRefusals refused r

section Parts

variable {n : Int} {r : Resource}

/-- The source is stored after the attributes. -/
private theorem RowsIndexed.parts {t' : Tables} {first more : List LogLine}
    (hattributes : RowsIndexed refused .insertAttribute .attributes (r.attributes.map (⟨n, ·⟩))
      (r.attributes.map (aboutAttribute r.name)) t u first)
    (hsource : RowsIndexed refused .insertSource .sources (r.source.toList.map (⟨n, ·⟩))
      (r.source.toList.map fun _ => aboutSource r.name) u t' more) :
    PartsIndexed refused n r t t' (first ++ more) where
  valid := hsource.valid
  elsewhere k hk hk' := (hsource.elsewhere k hk').trans (hattributes.elsewhere k hk)
  attributes horder a ha := by
    have hlast : IsLast (Kind.key .attributes) ⟨n, a⟩ (r.attributes.map (⟨n, ·⟩)) :=
      ha.map fun b hsame => (Prod.mk.inj hsame).2
    exact (hattributes.stored horder _ hlast).of_same (hsource.elsewhere .attributes nofun)
  source horder x hx := by
    refine hsource.stored horder _ ⟨[], [], ?_, List.forall_mem_nil _⟩
    rw [Option.mem_def.mp hx]
    rfl
  attributesKept p hp hthere := by
    refine (hattributes.kept p (fun q hq hsame => ?_) hthere).of_same
      (hsource.elsewhere .attributes nofun)
    obtain ⟨a, -, rfl⟩ := List.mem_map.mp hq
    exact hp (Prod.mk.inj hsame).1
  sourcesKept p hp hthere := by
    refine hsource.kept p (fun q hq hsame => ?_)
      (hthere.of_same (hattributes.elsewhere .sources nofun))
    obtain ⟨x, -, rfl⟩ := List.mem_map.mp hq
    exact hp hsame
  attributesAppended horder hdistinct := by
    have hsame : t'.attributes = u.attributes := hsource.elsewhere .attributes nofun
    rw [hsame]
    exact hattributes.appended horder hdistinct
  sourcesAppended horder hdistinct := by
    have hsame : u.sources = t.sources := hattributes.elsewhere .sources nofun
    rw [← hsame] at hdistinct ⊢
    exact hsource.appended horder hdistinct
  lines := by rw [hattributes.lines, hsource.lines, partRefusals]

/-- The attributes of a resource are stored, and then its source. -/
private theorem indexParts_attempts (r : Resource) (ht : σ.store.tables = some t) (h : t.Valid)
    (howner : t.resources.has n = true) (hn : (Param.number n).fault? = none) :
    Attempts (do
        indexAttributes n r.name r.attributes
        match r.source with
        | none => return ()
        | some x =>
          let _ ← orWarn ("Failed to store source snippet for " ++ r.name)
            (updating (·.insertSource n x))) σ
      ((σ.store.outOfOrder.contains .insertAttribute = false →
          ∀ a ∈ r.attributes, AttributeFits a) ∧
        (σ.store.outOfOrder.contains .insertSource = false → ∀ x ∈ r.source, SourceFits x))
      fun _ => PartsIndexed σ.store.outOfOrder n r t := by
  refine (indexAttributes_attempts r.name r.attributes ht h howner hn).bind fun _ u first hu => ?_
  have hsources (t' : Tables) (more : List LogLine) (hmore : RowsIndexed σ.store.outOfOrder
      .insertSource .sources (r.source.toList.map (⟨n, ·⟩))
      (r.source.toList.map fun _ => aboutSource r.name) u t' more) :
      PartsIndexed σ.store.outOfOrder n r t t' (first ++ more) :=
    hu.parts hmore
  cases hr : r.source with
  | none =>
    refine .pure rfl (fun _ _ hx => nomatch hx) (hsources u [] ?_)
    rw [hr]
    exact .nil _ _ _ hu.valid
  | some x =>
    have hresource : u.resources.has n = true := by
      have hsame : u.resources = t.resources := hu.elsewhere .resources nofun
      rwa [hsame]
    have hsource := insertSource_attempts (σ := σ.carried u first) r.name x rfl hu.valid
      hresource hn
    refine (hsource.bind (q := True) fun done t' more hmore => .pure rfl trivial
      (hsources t' (more ++ []) ?_)).mono ?_ fun _ _ _ hS => hS
    · rw [hr, List.append_nil]
      exact .single hu.valid hmore fun _ _ hS => hS
    · refine ⟨fun hfits horder y hy => ?_, fun hfits => ⟨fun horder => hfits horder x rfl, trivial⟩⟩
      exact Option.some.inj hy ▸ hfits.1 horder

end Parts

/-! ### Resources -/

/-- What tells a resource from the others of a repository. -/
def nameAndKind (r : Resource) : Text × ResourceKind := (r.name, r.kind)

/-- The number of the service that a resource is linked to. -/
def linkOf (links : ServiceLinks) (r : Resource) : Option Int :=
  links.lookup (r.serviceDirectory.getD [])

/-- Linked services are there. -/
theorem has_of_lookup {links : ServiceLinks} (h : ∀ x ∈ links, t.services.has x.2 = true)
    {d : Text} {n : Int} (hn : links.lookup d = some n) : t.services.has n = true := by
  obtain ⟨before, after, rfl, -⟩ := List.lookup_eq_some_iff.mp hn
  exact h (d, n) (List.mem_append_right _ List.mem_cons_self)

/-- The row of a resource. -/
def resourceRow (id : Int) (links : ServiceLinks) (r : Resource) : Kind.Value .resources :=
  ⟨id, .ofResource r (linkOf links r)⟩

/-- A resource is stored, with the last attribute of each name and with its source unless these are
refused. -/
def HasResource (refused : List Operation) (id : Int) (t : Tables) (r : Resource) : Prop :=
  ∃ n link, (⟨n, ⟨id, .ofResource r link⟩⟩ : Row (Kind.Value .resources)) ∈ t.resources.rows ∧
    (refused.contains .insertAttribute = false →
      ∀ a, IsLast (·.name) a r.attributes → t.Has .attributes ⟨n, a⟩) ∧
    (refused.contains .insertSource = false → ∀ x ∈ r.source, t.Has .sources ⟨n, x⟩)

/-- The warnings about a resource: that it is refused, or else those about its parts. -/
def resourceRefusals (refused : List Operation) (r : Resource) : List LogLine :=
  refusals refused .insertResource [aboutResource r] ++
    if refused.contains .insertResource then [] else partRefusals refused r

/-- The tables before and after a resource was stored with everything that belongs to it. -/
structure ResourceIndexed (refused : List Operation) (id : Int) (link : Option Int) (r : Resource)
    (t t' : Tables) (lines : List LogLine) : Prop where
  valid : t'.Valid
  repositories : t'.repositories = t.repositories
  services : t'.services = t.services
  last : t'.resources.last ≤ t.resources.last + 1
  stored : refused.contains .insertResource = false → HasResource refused id t' r
  kept : ∀ q, nameAndKind q ≠ nameAndKind r → HasResource refused id t q →
    HasResource refused id t' q
  appended : refused = [] → (r.attributes.map (·.name)).Nodup →
    Kind.Distinct .resources (t.resources.values ++ [⟨id, .ofResource r link⟩]) →
      ∃ n, t.Appends id link r n t'
  lines : lines = resourceRefusals refused r

section Resources

variable {id n : Int} {links : ServiceLinks} {link : Option Int} {r : Resource} {rs : List Resource}

/-- Other resources are kept while a resource and its parts are stored. -/
private theorem HasResource.kept {q : Resource} {t' : Tables} {lines : List LogLine}
    (hq : HasResource refused id t q) (hne : nameAndKind q ≠ nameAndKind r)
    (hrow : t.Stores .resources ⟨id, .ofResource r link⟩ n u)
    (hparts : PartsIndexed refused n r u t' lines) : HasResource refused id t' q := by
  obtain ⟨m, link', hm, hattributes, hsource⟩ := hq
  have hkey : Kind.key .resources ⟨id, .ofResource q link'⟩ ≠
      Kind.key .resources ⟨id, .ofResource r link⟩ :=
    fun hkey => hne (Prod.mk.inj hkey).2
  have hm' : (⟨m, ⟨id, .ofResource q link'⟩⟩ : Row (Kind.Value .resources)) ∈
      u.resources.rows := hrow.kept hm hkey
  have hnumber : m ≠ n := by
    rintro rfl
    have hsame := hrow.valid.resources.eq_of_id hm' hrow.stored rfl
    exact hkey (congrArg (fun x => Kind.key .resources x.value) hsame)
  have hresources : t'.resources = u.resources := hparts.elsewhere .resources nofun nofun
  refine ⟨m, link', hresources ▸ hm', fun horder a ha => ?_, fun horder x hx => ?_⟩
  · refine hparts.attributesKept _ hnumber ((hattributes horder a ha).of_same ?_)
    exact hrow.upserted.elsewhere .attributes nofun
  · refine hparts.sourcesKept _ hnumber ((hsource horder x hx).of_same ?_)
    exact hrow.upserted.elsewhere .sources nofun

/-- A resource under a new key is appended with its parts. -/
private theorem PartsIndexed.appends {t' : Tables} {lines : List LogLine}
    (hparts : PartsIndexed [] n r u t' lines) (h : t.Valid)
    (hrow : t.Stores .resources ⟨id, .ofResource r link⟩ n u)
    (hnames : (r.attributes.map (·.name)).Nodup)
    (hdistinct : Kind.Distinct .resources (t.resources.values ++ [⟨id, .ofResource r link⟩])) :
    t.Appends id link r n t' := by
  have hfresh : t.resources.has n = false := hrow.fresh hdistinct.new
  have hrows : u.resources.rows = _ := hrow.appended hdistinct.new
  have hresources : t'.resources = u.resources := hparts.elsewhere .resources nofun nofun
  have hattributes : u.attributes = t.attributes := hrow.upserted.elsewhere .attributes nofun
  have hsources : u.sources = t.sources := hrow.upserted.elsewhere .sources nofun
  refine ⟨hfresh, hresources ▸ hrows, ?_, ?_⟩
  · rw [← hattributes]
    exact hparts.attributesAppended rfl (hattributes ▸ h.distinct_attributes hfresh hnames)
  · rw [← hsources]
    exact hparts.sourcesAppended rfl (hsources ▸ h.distinct_sources hfresh r.source)

private theorem PartsIndexed.resource {t' : Tables} {first more : List LogLine}
    (hparts : PartsIndexed refused n r u t' more) (h : t.Valid)
    (hrow : t.Stores .resources ⟨id, .ofResource r link⟩ n u)
    (hfirst : first = refusals refused .insertResource [aboutResource r])
    (horder : refused.contains .insertResource = false) :
    ResourceIndexed refused id link r t t' (first ++ more) := by
  have hresources : t'.resources = u.resources := hparts.elsewhere .resources nofun nofun
  have hrepositories : t'.repositories = u.repositories :=
    hparts.elsewhere .repositories nofun nofun
  have hservices : t'.services = u.services := hparts.elsewhere .services nofun nofun
  have hlast : u.resources.last = t.resources.last + 1 := hrow.last
  refine ⟨hparts.valid, ?_, ?_, ?_, fun _ => ?_, fun q hne hq => hq.kept hne hrow hparts, ?_, ?_⟩
  · exact hrepositories.trans (hrow.upserted.elsewhere .repositories nofun)
  · exact hservices.trans (hrow.upserted.elsewhere .services nofun)
  · exact Int.le_of_eq (hresources ▸ hlast)
  · have hstored : (⟨n, ⟨id, .ofResource r link⟩⟩ : Row (Kind.Value .resources)) ∈
        u.resources.rows := hrow.stored
    exact ⟨n, link, hresources ▸ hstored, hparts.attributes, hparts.source⟩
  · rintro rfl hnames hdistinct
    exact ⟨n, hparts.appends h hrow hnames hdistinct⟩
  · rw [hfirst, hparts.lines, resourceRefusals, horder]
    rfl

/-- A resource is stored with its parts, or passed over with them. -/
private theorem indexResource_attempts (r : Resource) (ht : σ.store.tables = some t) (h : t.Valid)
    (howner : t.repositories.has id = true) (hid : (Param.number id).fault? = none)
    (hlinks : ∀ x ∈ links, t.services.has x.2 = true) (hservices : t.services.last < 2 ^ 63)
    (hroom : t.resources.last + 1 < 2 ^ 63) :
    Attempts (indexResource id links r) σ
      (σ.store.outOfOrder.contains .insertResource = false → ResourceFits σ.store.outOfOrder r)
      fun _ => ResourceIndexed σ.store.outOfOrder id (linkOf links r) r t := by
  have hlink (s : Int) (hs : linkOf links r = some s) : t.services.has s = true :=
    has_of_lookup hlinks hs
  have hrow := insertResource_attempts r ht h howner hid hlink hservices
  refine (hrow.bind (q := σ.store.outOfOrder.contains .insertResource = false →
      (σ.store.outOfOrder.contains .insertAttribute = false →
        ∀ a ∈ r.attributes, AttributeFits a) ∧
      (σ.store.outOfOrder.contains .insertSource = false → ∀ x ∈ r.source, SourceFits x))
    fun id? u first hfirst => ?_).mono ?_ fun _ _ _ hS => hS
  · rcases hfirst.outcome with ⟨hout, rfl, rfl⟩ | ⟨horder, n, rfl, hstores⟩
    · refine .pure rfl (fun horder => nomatch hout.symm.trans horder) ?_
      refine ⟨h, rfl, rfl, Int.le_of_lt (Int.lt_succ _), fun horder => ?_, fun _ _ hq => hq,
        fun horder => ?_, ?_⟩
      · exact nomatch hout.symm.trans horder
      · rw [horder] at hout
        exact nomatch hout
      rw [hfirst.lines, resourceRefusals, hout]
      rfl
    · have hthere : u.resources.has n = true := Table.has_of_mem hstores.stored
      have hlast : u.resources.last = t.resources.last + 1 := hstores.last
      have hn : (Param.number n).fault? = none :=
        hstores.valid.resources.fits_of_has hthere (hlast ▸ hroom)
      refine (indexParts_attempts (σ := σ.carried u first) r rfl hstores.valid hthere hn).mono ?_
        fun _ t' more hparts => ?_
      · exact ⟨fun hfits _ => hfits, fun hfits => hfits horder⟩
      · exact hparts.resource h hstores hfirst.lines horder
  · constructor
    · rintro ⟨hrow, hparts⟩ horder
      exact ⟨hrow horder, (hparts horder).1, (hparts horder).2⟩
    · intro hfits
      exact ⟨fun horder => (hfits horder).row,
        fun horder => ⟨(hfits horder).attributes, (hfits horder).source⟩⟩

/-- The tables before and after resources were appended with everything that belongs to them. -/
structure DescribesAll (id : Int) (links : ServiceLinks) (rs : List Resource) (t t' : Tables) :
    Prop where
  values : t'.resources.values = t.resources.values ++ rs.map (resourceRow id links)
  described : ∀ r ∈ rs, ∃ n, t'.Describes id (linkOf links r) r n
  kept : ∀ other link q m, t.Describes other link q m → t'.Describes other link q m

namespace DescribesAll

theorem nil (id : Int) (links : ServiceLinks) (t : Tables) : DescribesAll id links [] t t :=
  ⟨(List.append_nil _).symm, fun _ hr => (nomatch hr), fun _ _ _ _ hq => hq⟩

theorem cons {t' : Tables} (h : t.Valid) (hfirst : t.Appends id (linkOf links r) r n u)
    (hrest : DescribesAll id links rs u t') : DescribesAll id links (r :: rs) t t' where
  values := by
    rw [hrest.values, hfirst.values, List.map_cons, List.append_assoc]
    rfl
  described q hq := by
    rcases List.mem_cons.mp hq with rfl | hq
    · exact ⟨n, hrest.kept _ _ _ _ (hfirst.describes h)⟩
    · exact hrest.described q hq
  kept other link q m hq := hrest.kept other link q m (hq.kept hfirst)

end DescribesAll

/-- The tables before and after resources were stored. -/
structure ResourcesIndexed (refused : List Operation) (id : Int) (links : ServiceLinks)
    (rs : List Resource) (t t' : Tables) (lines : List LogLine) : Prop where
  valid : t'.Valid
  services : t'.services = t.services
  last : t'.resources.last ≤ t.resources.last + rs.length
  stored : refused.contains .insertResource = false →
    ∀ r, IsLast nameAndKind r rs → HasResource refused id t' r
  kept : ∀ q, (∀ r ∈ rs, nameAndKind q ≠ nameAndKind r) → HasResource refused id t q →
    HasResource refused id t' q
  appended : refused = [] → (∀ r ∈ rs, (r.attributes.map (·.name)).Nodup) →
    Kind.Distinct .resources (t.resources.values ++ rs.map (resourceRow id links)) →
      DescribesAll id links rs t t'
  lines : lines = rs.flatMap (resourceRefusals refused)

private theorem ResourcesIndexed.cons {t' : Tables} {first more : List LogLine} (h : t.Valid)
    (hfirst : ResourceIndexed refused id (linkOf links r) r t u first)
    (hrest : ResourcesIndexed refused id links rs u t' more) :
    ResourcesIndexed refused id links (r :: rs) t t' (first ++ more) where
  valid := hrest.valid
  services := hrest.services.trans hfirst.services
  last := by
    have hfirst := hfirst.last
    have hrest := hrest.last
    rw [List.length_cons]
    omega
  stored horder q hq := by
    rcases isLast_cons.mp hq with ⟨rfl, hlater⟩ | hq
    · exact hrest.kept q (fun x hx => (hlater x hx).symm) (hfirst.stored horder)
    · exact hrest.stored horder q hq
  kept q hne hq := by
    obtain ⟨hr, hothers⟩ := List.forall_mem_cons.mp hne
    exact hrest.kept q hothers (hfirst.kept q hr hq)
  appended horder hnames hdistinct := by
    obtain ⟨hr, hothers⟩ := List.forall_mem_cons.mp hnames
    rw [List.map_cons, List.append_cons] at hdistinct
    obtain ⟨n, hn⟩ := hfirst.appended horder hr (List.pairwise_append.mp hdistinct).1
    have hvalues : t.resources.values ++ [resourceRow id links r] = u.resources.values :=
      hn.values.symm
    rw [hvalues] at hdistinct
    exact .cons h hn (hrest.appended horder hothers hdistinct)
  lines := by rw [hfirst.lines, hrest.lines, List.flatMap_cons]

/-- The resources are stored one after the other, refused ones passed over. -/
theorem indexResources_attempts (rs : List Resource) (ht : σ.store.tables = some t) (h : t.Valid)
    (howner : t.repositories.has id = true) (hid : (Param.number id).fault? = none)
    (hlinks : ∀ x ∈ links, t.services.has x.2 = true) (hservices : t.services.last < 2 ^ 63)
    (hroom : t.resources.last + rs.length < 2 ^ 63) :
    Attempts (indexResources id links rs) σ
      (σ.store.outOfOrder.contains .insertResource = false →
        ∀ r ∈ rs, ResourceFits σ.store.outOfOrder r)
      fun _ => ResourcesIndexed σ.store.outOfOrder id links rs t := by
  induction rs generalizing σ t with
  | nil =>
    refine .pure ht (fun _ r hr => nomatch hr)
      ⟨h, rfl, Int.le_of_eq (Int.add_zero _).symm, fun _ r hr => ?_, fun _ _ hq => hq,
        fun _ _ _ => .nil id links t, rfl⟩
    exact absurd hr not_isLast_nil
  | cons r rs ih =>
    rw [List.length_cons] at hroom
    have hfirst := indexResource_attempts r ht h howner hid hlinks hservices (by omega)
    refine hfirst.cons fun _ u first hu => ?_
    have hlast := hu.last
    exact (ih (σ := σ.carried u first) rfl hu.valid (hu.repositories ▸ howner)
      (hu.services ▸ hlinks) (hu.services ▸ hservices) (by omega)).mono Iff.rfl
        fun _ t' more hrest => .cons h hu hrest

end Resources

/-! ### Services -/

section Services

variable {id : Int} {links links' : ServiceLinks} {s : Service} {ss : List Service}

/-- The name of the last of some services that has a directory. -/
def lastNamed? (d : Text) (ss : List Service) : Option Text :=
  (ss.reverse.find? (·.directory == some d)).map (·.name)

theorem lastNamed?_cons (d : Text) (s : Service) (ss : List Service) :
    lastNamed? d (s :: ss) =
      (lastNamed? d ss).or (if s.directory = some d then some s.name else none) := by
  rw [lastNamed?, List.reverse_cons, List.find?_append, Option.map_or, List.find?_singleton]
  simp only [beq_iff_eq]
  split <;> rfl

/-- The name of the service that a directory is linked to. -/
def linkedName? (t : Tables) (links : ServiceLinks) (d : Text) : Option Text :=
  (links.lookup d).bind t.serviceNamed?

/-- Links keep their names when a service is stored. -/
theorem linkedName?_kept {x : Store.StoredService} {n : Int}
    (hrow : t.Stores .services ⟨id, x⟩ n u) (h : t.Valid)
    (hlinks : ∀ x ∈ links, t.services.has x.2 = true) (d : Text) :
    linkedName? u links d = linkedName? t links d := by
  rw [linkedName?, linkedName?]
  cases hd : links.lookup d with
  | none => rfl
  | some m => exact hrow.serviceNamed?_kept h (has_of_lookup hlinks hd)

/-- A service whose directory is not empty gives the directory its name. -/
theorem linkedName?_cons {n : Int} (hrow : t.Stores .services ⟨id, .ofService s⟩ n u)
    (h : t.Valid) (hlinks : ∀ x ∈ links, t.services.has x.2 = true) {directory : Text}
    (hs : s.directory = some directory) (d : Text) :
    linkedName? u ((directory, n) :: links) d =
      (if s.directory = some d then some s.name else none).or (linkedName? t links d) := by
  by_cases hd : d = directory
  · subst hd
    have hname : u.serviceNamed? n = some s.name := by
      rw [Tables.serviceNamed?, hrow.valid.services.get?_eq_some.mpr hrow.stored]
      rfl
    rw [linkedName?, List.lookup_cons_self, Option.bind_some, hname, if_pos hs, Option.some_or]
  · have hne : s.directory ≠ some d := fun hsame => hd (Option.some.inj (hsame.symm.trans hs))
    rw [if_neg hne, Option.none_or, ← linkedName?_kept hrow h hlinks, linkedName?, linkedName?,
      List.lookup_cons, beq_eq_false_iff_ne.mpr hd]

/-- The tables before and after services were stored, with the numbers of services by directory
before and after. -/
structure ServicesIndexed (refused : List Operation) (id : Int) (ss : List Service)
    (links : ServiceLinks) (t : Tables) (links' : ServiceLinks) (t' : Tables)
    (lines : List LogLine) : Prop where
  rows : RowsIndexed refused .insertService .services (ss.map fun s => ⟨id, .ofService s⟩)
    (ss.map aboutService) t t' lines
  /-- A directory is linked to the last service that has it. -/
  named : refused = [] → (∀ s ∈ ss, s.directory ≠ some []) → ∀ d,
    linkedName? t' links' d = (lastNamed? d ss).or (linkedName? t links d)
  links : ∀ x ∈ links', t'.services.has x.2 = true

/-- No more numbers are given out than there are services. -/
theorem ServicesIndexed.last {t' : Tables} {lines : List LogLine}
    (h : ServicesIndexed refused id ss links t links' t' lines) :
    t'.services.last ≤ t.services.last + ss.length := by
  have hlast := h.rows.last
  rwa [List.length_map] at hlast

/-- The last service of each name is stored. -/
theorem ServicesIndexed.stored {t' : Tables} {lines : List LogLine}
    (h : ServicesIndexed refused id ss links t links' t' lines)
    (horder : refused.contains .insertService = false) (hs : IsLast (·.name) s ss) :
    t'.Has .services ⟨id, .ofService s⟩ := by
  let row (s : Service) : Kind.Value .services := ⟨id, .ofService s⟩
  have hlast : IsLast (Kind.key .services) (row s) (ss.map row) :=
    hs.map fun b hsame => (Prod.mk.inj hsame).2
  exact h.rows.stored horder (row s) hlast

/-- The services are stored one after the other, refused ones passed over. -/
theorem indexServices_attempts (links : ServiceLinks) (ss : List Service)
    (ht : σ.store.tables = some t) (h : t.Valid) (howner : t.repositories.has id = true)
    (hid : (Param.number id).fault? = none) (hlinks : ∀ x ∈ links, t.services.has x.2 = true) :
    Attempts (indexServices id links ss) σ
      (σ.store.outOfOrder.contains .insertService = false → ∀ s ∈ ss, ServiceFits s)
      (ServicesIndexed σ.store.outOfOrder id ss links t) := by
  induction ss generalizing σ t links with
  | nil => exact .pure ht (fun _ s hs => nomatch hs) ⟨.nil _ _ _ h, fun _ _ _ => rfl, hlinks⟩
  | cons s ss ih =>
    refine (insertService_attempts s ht h howner hid).cons fun id? u first hx => ?_
    have hu : RowsIndexed σ.store.outOfOrder .insertService .services [⟨id, .ofService s⟩]
        [aboutService s] t u first :=
      .single h hx fun n _ hstores => ⟨n, hstores⟩
    have hrepositories : u.repositories = t.repositories := hu.elsewhere .repositories nofun
    have hold : ∀ x ∈ links, u.services.has x.2 = true :=
      fun x hx => hu.numbers x.2 (hlinks x hx)
    have hnext (links' : ServiceLinks) (hlinks' : ∀ x ∈ links', u.services.has x.2 = true)
        (hnamed : σ.store.outOfOrder = [] → s.directory ≠ some [] → ∀ d, linkedName? u links' d =
          (if s.directory = some d then some s.name else none).or (linkedName? t links d)) :
        Attempts (indexServices id links' ss) (σ.carried u first)
          (σ.store.outOfOrder.contains .insertService = false → ∀ x ∈ ss, ServiceFits x)
          fun links'' t' more =>
            ServicesIndexed σ.store.outOfOrder id (s :: ss) links t links'' t' (first ++ more) := by
      refine (ih (σ := σ.carried u first) links' rfl hu.valid (hrepositories ▸ howner)
        hlinks').mono Iff.rfl fun _ t' more hrest =>
          ⟨hu.cons hrest.rows, fun horder hdirectories d => ?_, hrest.links⟩
      obtain ⟨hs, hothers⟩ := List.forall_mem_cons.mp hdirectories
      rw [hrest.named horder hothers d, hnamed horder hs d, lastNamed?_cons, Option.or_assoc]
    split
    · rename_i n p l hs
      have hstores : t.Stores .services ⟨id, .ofService s⟩ n u := by
        obtain ⟨-, hnone, -⟩ | ⟨-, m, hm, hstores⟩ := hx.outcome
        · exact nomatch hnone
        · exact Option.some.inj hm ▸ hstores
      exact hnext _ (List.forall_mem_cons.mpr ⟨Table.has_of_mem hstores.stored, hold⟩)
        fun _ _ => linkedName?_cons hstores h hlinks hs
    · rename_i hunlinked
      refine hnext _ hold fun horder hs d => ?_
      obtain ⟨hout, -⟩ | ⟨-, n, rfl, hstores⟩ := hx.outcome
      · rw [horder] at hout
        exact nomatch hout
      · have hnone : s.directory ≠ some d := by
          rintro hsame
          cases d with
          | nil => exact hs hsame
          | cons p l => exact hunlinked n p l rfl hsame
        rw [if_neg hnone, Option.none_or, linkedName?_kept hstores h hlinks]

end Services

end Sync

end ProviderCatalog
