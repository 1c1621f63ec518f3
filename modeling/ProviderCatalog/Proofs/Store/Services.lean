import ProviderCatalog.Proofs.Store.Calls
import ProviderCatalog.Proofs.Store.Storing
import ProviderCatalog.Proofs.Text.Pieces

/-!
# Services that are read back

A service is stored with its categories in one text, with commas between them, and read back with
the pieces of that text. A category in which there is a comma comes back as several categories, or
as none; all others come back as they were, and so does everything else of a service.

## Main definitions

* `categoryPieces`: what a category is read back as.

## Main results

* `toService_ofService`: a service as it is read back.
* `services_insertService`: the services of a repository after one was stored.
* `services_insertService_splits`: a category with a comma.
-/

namespace ProviderCatalog.Store

open Schema (Service)

variable {t t' : Tables} {id n : Int} {s : Service} {cs : List Text}

/-! ### Categories -/

/-- What a category is read back as: its pieces between commas that are not empty. -/
def categoryPieces (c : Text) : List Text :=
  (Text.splitOn categorySeparator c).filter (!·.isEmpty)

/-- A service comes back without its directory, and with the pieces of its categories. -/
theorem toService_ofService (s : Service) :
    (StoredService.ofService s).toService =
      { s with directory := none, categories := s.categories.flatMap categoryPieces } := by
  obtain ⟨name, path, directory, categories, label⟩ := s
  have hpieces : (Text.splitOn categorySeparator (Text.join [categorySeparator] categories)).filter
      (!·.isEmpty) = categories.flatMap categoryPieces := by
    by_cases hnil : categories = []
    · rw [hnil]
      rfl
    · rw [Text.splitOn_join _ hnil, List.filter_flatMap]
      rfl
  rw [StoredService.ofService, StoredService.toService, hpieces]

/-- Categories that are not empty come back as they were if there is no comma in them. -/
theorem flatMap_categoryPieces_eq_iff (h : ∀ c ∈ cs, c ≠ []) :
    cs.flatMap categoryPieces = cs ↔ ∀ c ∈ cs, categorySeparator ∉ c := by
  constructor
  · intro hsame c hc
    rw [← hsame] at hc
    obtain ⟨_, -, hpiece⟩ := List.mem_flatMap.mp hc
    exact Text.notMem_of_mem_splitOn (List.mem_of_mem_filter hpiece)
  · intro hfree
    have hpieces : ∀ c ∈ cs, categoryPieces c = [c] := fun c hc => by
      rw [categoryPieces, Text.splitOn_of_notMem (hfree c hc)]
      simpa using h c hc
    rw [List.flatMap_congr hpieces, List.flatMap_singleton']

/-! ### The services of a repository -/

/-- The services of a repository are read back from their rows. -/
theorem Tables.mem_servicesOf (t : Tables) (hid : (Param.number id).fault? = none) :
    ∃ listed, t.servicesOf id = .ok listed ∧
      ∀ x, x ∈ listed ↔ ∃ r ∈ t.services.rows, r.value.owner = id ∧ r.value.value.toService = x := by
  have hread : t.servicesOf id = .ok ((((t.services.select (·.owner == id)).map
      (·.value.value)).mergeSort fun a b => precedes a.name b.name).map (·.toService)) := by
    rw [servicesOf, Param.bind_of_fits hid]
    rfl
  refine ⟨_, hread, fun x => ?_⟩
  simp only [List.mem_map, List.mem_mergeSort, Table.select, List.mem_filter, beq_iff_eq]
  constructor
  · rintro ⟨-, ⟨r, ⟨hr, howner⟩, rfl⟩, rfl⟩
    exact ⟨r, hr, howner, rfl⟩
  · rintro ⟨r, hr, howner, rfl⟩
    exact ⟨_, ⟨r, ⟨hr, howner⟩, rfl⟩, rfl⟩

/-- The only service with its name is the one that was stored. -/
theorem Tables.Stores.mem_servicesOf (h : t.Stores .services ⟨id, .ofService s⟩ n t')
    (hid : (Param.number id).fault? = none) :
    ∃ listed, t'.servicesOf id = .ok listed ∧ (StoredService.ofService s).toService ∈ listed ∧
      ∀ y ∈ listed, y.name = s.name → y = (StoredService.ofService s).toService := by
  obtain ⟨listed, hread, hmem⟩ := t'.mem_servicesOf hid
  refine ⟨listed, hread, (hmem _).mpr ⟨_, h.stored, rfl, rfl⟩, fun y hy hname => ?_⟩
  obtain ⟨r, hr, howner, rfl⟩ := (hmem y).mp hy
  have hsame := h.valid.services.eq_of_key hr h.stored (Prod.ext howner hname)
  rw [hsame]

/-- The values of a service without lone surrogates fit into their columns. -/
theorem ofService_fits (hid : (Param.number id).fault? = none)
    (htexts : ∀ x ∈ s.name :: s.filePath :: s.label.toList ++ s.categories, x.isUnicode = true) :
    Param.bind (Param.ofService ⟨id, .ofService s⟩) = .ok () := by
  have hjoined : (Text.join [categorySeparator] s.categories).isUnicode = true :=
    Text.isUnicode_join rfl fun c hc => htexts c (List.mem_append_right _ hc)
  rw [Param.bind_eq_ok_iff]
  simp only [Param.ofService, List.forall_mem_cons, StoredService.ofService, hid,
    Param.text_fits_iff, Param.ofText?_fits_iff, hjoined, true_and]
  simp only [List.cons_append, List.forall_mem_cons, List.forall_mem_append] at htexts
  obtain ⟨hname, hpath, hlabel, -⟩ := htexts
  exact ⟨hname, hpath, fun l hl => hlabel l (Option.mem_toList.mpr hl), List.forall_mem_nil _⟩

/-- A service that is stored after any calls for a repository that is there, and that has no lone
surrogates, is the only one of its name among the services of the repository. It has its path and
its label, and the pieces of its categories; if none of those is empty, they are its categories
exactly if there is no comma in them. -/
theorem services_insertService (calls : List Call) (hfits : id < 2 ^ 63)
    (hrepository : (ready.after calls).contents.repositories.has id = true)
    (htexts : ∀ x ∈ s.name :: s.filePath :: s.label.toList ++ s.categories, x.isUnicode = true) :
    ∃ σ n listed x,
      ({ ready.after calls with outOfOrder := [] } : Store).insertService id s = .ok (σ, n) ∧
      σ.services id = .ok listed ∧ x ∈ listed ∧ (∀ y ∈ listed, y.name = s.name → y = x) ∧
      x.name = s.name ∧ x.filePath = s.filePath ∧ x.label = s.label ∧
      x.categories = s.categories.flatMap categoryPieces ∧
      ((∀ c ∈ s.categories, c ≠ []) →
        (x.categories = s.categories ↔ ∀ c ∈ s.categories, categorySeparator ∉ c)) := by
  obtain ⟨htables, hvalid⟩ := ready_after calls
  have hid : (Param.number id).fault? = none := by
    obtain ⟨r, hr, rfl⟩ := Table.has_iff.mp hrepository
    have hpositive := hvalid.repositories.positive r hr
    exact Param.fits_iff.mpr (by omega)
  obtain ⟨t', n, hput, hstores⟩ := hvalid.putService_stores hrepository (ofService_fits hid htexts)
  obtain ⟨listed, hread, hmem, honly⟩ := hstores.mem_servicesOf hid
  have hwrite : ({ ready.after calls with outOfOrder := [] } : Store).insertService id s = _ :=
    write_inOrder rfl htables
  rw [hput] at hwrite
  refine ⟨_, n, listed, _, hwrite, (read_inOrder rfl rfl).trans hread, hmem, honly, ?_⟩
  rw [toService_ofService]
  exact ⟨rfl, rfl, rfl, rfl, flatMap_categoryPieces_eq_iff⟩

/-! ### A category with a comma -/

/-- Calls that leave a repository without services. -/
def recordCalls : List Call := [⟨[], .insertRepository ⟨none, "x", "acme/x", none, [], none, none⟩⟩]

/-- A service with two categories, the second of which is given. -/
def diskService (category : Text) : Service :=
  ⟨"Compute", "services/compute/registration.go", some "compute", ["Compute", category],
    some "service/compute"⟩

/-- Without a comma the categories come back as they were. -/
theorem services_insertService_of_disks :
    ∃ σ n listed x,
      ({ ready.after recordCalls with outOfOrder := [] } : Store).insertService 1
        (diskService "Disks") = .ok (σ, n) ∧
      σ.services 1 = .ok listed ∧ x ∈ listed ∧ x.name = "Compute" ∧
      x.categories = ["Compute", "Disks"] := by
  obtain ⟨σ, n, listed, x, hinsert, hread, hx, -, hname, -, -, -, hcategories⟩ :=
    @services_insertService 1 (diskService "Disks") recordCalls (by decide) (by decide +kernel)
      (by decide)
  exact ⟨σ, n, listed, x, hinsert, hread, hx, hname,
    (hcategories (by decide)).mpr (by decide)⟩

/-- A category with a comma comes back as two. -/
theorem services_insertService_splits :
    ¬∀ (calls : List Call) (id : Int) (s : Service), id < 2 ^ 63 →
      (ready.after calls).contents.repositories.has id = true →
      (∀ x ∈ s.name :: s.filePath :: s.label.toList ++ s.categories, x.isUnicode = true) →
      (∀ c ∈ s.categories, c ≠ []) →
        ∃ σ n listed x,
          ({ ready.after calls with outOfOrder := [] } : Store).insertService id s = .ok (σ, n) ∧
          σ.services id = .ok listed ∧ x ∈ listed ∧ x.name = s.name ∧ x.filePath = s.filePath ∧
          x.categories = s.categories ∧ x.label = s.label := by
  intro h
  obtain ⟨σ, n, listed, x, hinsert, hread, hx, -, -, hcategories, -⟩ :=
    h recordCalls 1 (diskService "Disks, Images") (by decide) (by decide +kernel) (by decide)
      (by decide)
  let pieces : List Text := ["Compute", "Disks", " Images"]
  have hall : ((({ ready.after recordCalls with outOfOrder := [] } : Store).insertService 1
      (diskService "Disks, Images")).bind fun r => r.1.services 1).toOption.map
        (List.map (·.categories)) = some [pieces] := by
    decide +kernel
  rw [hinsert, Except.bind, hread] at hall
  have hlisted : listed.map (·.categories) = [pieces] := Option.some.inj hall
  have hmem := List.mem_map_of_mem (f := (·.categories)) hx
  rw [hlisted, List.mem_singleton, hcategories] at hmem
  exact absurd hmem (by decide)

end ProviderCatalog.Store
