import ProviderCatalog.Proofs.Go.Returning
import ProviderCatalog.Proofs.Go.Sources
import ProviderCatalog.Proofs.Schema.Registering
import ProviderCatalog.Proofs.Text.Lines

/-!
# Where the parts of a resource come from

A resource with a bundle of parts of its source stands in the file that the bundle names. The text
of its builder function occurs in the content of that file, and each other part occurs in the text
of the function: the literal that the function returns stands in its body, also if a variable holds
it, and the values of the fields of the literal stand between its braces.

## Main definitions

* `SnippetBundle.parts`: the parts of a bundle besides the function.
* `SnippetBundle.IsFrom`: a bundle is from a file.

## Main results

* `Node.infix_of_returnedLiteral?`: the literal that a function returns.
* `Provider.Builder.snippets_isFrom`: the parts of the source of a builder.
* `Provider.extract_traced`: the parts that the resources of an extraction have.
-/

namespace ProviderCatalog.Go

/-! ### Parts of a declaration -/

namespace Node

variable {n v b c : Node} {l : Literal}

theorem chars_infix_of_mem_walk (h : c ∈ n.walk) : c.chars <:+: n.chars := by
  induction n using induction_namedChildren with
  | node n ih =>
    rw [walk_eq] at h
    rcases List.mem_cons.mp h with rfl | h
    · exact List.infix_rfl
    · obtain ⟨m, hm, hc⟩ := List.mem_flatMap.mp h
      exact (ih m hm hc).trans (chars_infix_of_mem_namedChildren hm)

theorem chars_infix_of_mem_phrases (h : c ∈ n.phrases) : c.chars <:+: n.chars :=
  chars_infix_of_mem_namedChildren (mem_phrases.mp h).1

theorem chars_infix_of_mem_expressions (h : c ∈ n.expressions) : c.chars <:+: n.chars := by
  rw [expressions] at h
  split at h
  · exact chars_infix_of_mem_phrases h
  · exact List.mem_singleton.mp h ▸ List.infix_rfl

theorem chars_infix_of_mem_expressionsOf {r : Role} (h : c ∈ n.expressionsOf r) :
    c.chars <:+: n.chars := by
  rw [expressionsOf] at h
  split at h
  · rename_i m hm
    exact (chars_infix_of_mem_expressions h).trans (chars_infix_of_child? hm)
  · exact absurd h List.not_mem_nil

theorem chars_infix_of_mem_returnValues (h : c ∈ n.returnValues) : c.chars <:+: n.chars := by
  obtain ⟨m, hm, hc⟩ := List.mem_flatMap.mp h
  exact (chars_infix_of_mem_expressions hc).trans (chars_infix_of_mem_phrases hm)

theorem chars_infix_of_mem_bodyStatements (h : c ∈ n.bodyStatements) : c.chars <:+: n.chars := by
  rw [bodyStatements] at h
  split at h
  · exact absurd h List.not_mem_nil
  · rename_i body hbody
    obtain ⟨m, hm, hc⟩ := List.mem_flatMap.mp h
    refine List.IsInfix.trans ?_
      ((chars_infix_of_mem_namedChildren hm).trans (chars_infix_of_child? hbody))
    split at hc
    · exact chars_infix_of_mem_phrases hc
    · split at hc
      · exact absurd hc List.not_mem_nil
      · exact List.mem_singleton.mp hc ▸ List.infix_rfl

/-- What is given to a variable at a place that is searched stands in the statement. -/
theorem chars_infix_of_mem_reachedSites {site : Site} (h : site ∈ n.reachedSites)
    (hv : v ∈ site.values) : v.chars <:+: n.chars := by
  rw [reachedSites] at h
  split at h
  · rw [assignmentSites] at h
    split at h
    · obtain rfl := List.mem_singleton.mp h
      exact chars_infix_of_mem_expressionsOf hv
    · exact absurd h List.not_mem_nil
  · split at h
    · obtain ⟨spec, hspec, rfl⟩ := List.mem_map.mp h
      exact (chars_infix_of_mem_expressionsOf hv).trans
        (chars_infix_of_mem_walk (List.mem_filter.mp hspec).1)
    · exact absurd h List.not_mem_nil

/-- The braces of a literal stand in it. -/
theorem IsLiteral.text_infix (h : v.IsLiteral b) : b.text <:+: v.text := by
  obtain ⟨c, hdenotes, hbraces⟩ := h
  refine List.IsInfix.trans ?_ hdenotes.text_infix
  cases hbraces with
  | typed _ hbody => exact text_infix_text (chars_infix_of_child? hbody)
  | untyped _ => exact List.infix_rfl

end Node

/-- What is returned is a literal, also if a variable holds it. -/
theorem Returned.isLiteral {f : Node → List Site} {sites : List Site} {statements : List Node}
    {l : Node.Literal} (h : Returned f sites statements l) : l.expression.IsLiteral l.braces := by
  obtain ⟨i, ⟨s, -, -, hyields⟩, -⟩ := h
  cases hyields with
  | literal _ hliteral => exact hliteral
  | bound _ _ _ hlast =>
    obtain ⟨-, site, -, -, ⟨-, -, -, -, hliteral⟩, -⟩ := hlast
    exact hliteral

namespace Node

variable {n v b : Node} {l : Literal}

/-- The literal that a function returns stands in its body, with its braces. -/
theorem infix_of_returnedLiteral? (h : n.returnedLiteral? = some l) :
    l.expression.text <:+: n.text ∧ l.braces.text <:+: n.text := by
  have hreturned := (returnedFrom?_eq_some_iff holds_nil).mp h
  obtain ⟨s, hs, hvalue⟩ := hreturned.expression_mem
  have hexpression : l.expression.chars <:+: s.chars := by
    rcases List.mem_append.mp hvalue with hvalue | hvalue
    · exact chars_infix_of_mem_returnValues hvalue
    · obtain ⟨site, hsite, hvalue⟩ := List.mem_flatMap.mp hvalue
      exact chars_infix_of_mem_reachedSites hsite hvalue
  have hwhole := text_infix_text (hexpression.trans (chars_infix_of_mem_bodyStatements hs))
  exact ⟨hwhole, hreturned.isLiteral.text_infix.trans hwhole⟩

/-- The value of a field of a literal stands between its braces. -/
theorem text_infix_of_fieldValue? {key : String} (h : b.fieldValue? key = some v) :
    v.text <:+: b.text := by
  obtain ⟨⟨k, v⟩, hfield, rfl⟩ := Option.map_eq_some_iff.mp h
  obtain ⟨e, he, hfield⟩ := List.mem_filterMap.mp (List.mem_of_find?_eq_some hfield)
  rw [keyAndValue?] at hfield
  split at hfield
  · split at hfield
    · rename_i k' v' rest hphrases
      obtain ⟨x, -, hfield⟩ := Option.bind_eq_some_iff.mp hfield
      obtain ⟨y, hy, hfield⟩ := Option.bind_eq_some_iff.mp hfield
      cases hfield
      have hvalue : v' ∈ e.phrases := by simp [hphrases]
      have hinside := unwrap?_eq_some_iff.mp hy
      exact text_infix_text (hinside.chars_infix.trans
        ((chars_infix_of_mem_phrases hvalue).trans (chars_infix_of_mem_namedChildren he)))
    · cases hfield
  · cases hfield

end Node

end ProviderCatalog.Go

namespace ProviderCatalog.Schema

open Go (Node Source)

/-! ### Parts of a source -/

theorem present?_eq_some_iff {t u : Text} : present? t = some u ↔ t.trim = u ∧ u ≠ [] := by
  rw [present?]
  constructor
  · intro h
    split at h
    · exact nomatch h
    · rename_i hne
      cases h
      exact ⟨rfl, fun hnil => hne (hnil ▸ rfl)⟩
  · rintro ⟨rfl, hne⟩
    exact if_neg fun h => hne (List.isEmpty_iff.mp h)

/-- The parts of a bundle besides the function. -/
def SnippetBundle.parts (b : SnippetBundle) : List (Option Text) :=
  [b.schema, b.customizeDiff, b.timeouts, b.stateUpgraders, b.importer]

/-- A bundle names a file in whose content its function occurs, and its other parts occur in the
function. -/
def SnippetBundle.IsFrom (b : SnippetBundle) (f : RepositoryFile) : Prop :=
  f.path = b.filePath ∧ ∃ function, b.function = some function ∧ function <:+: f.content ∧
    ∀ part, some part ∈ b.parts → part <:+: function

namespace Provider

variable {p : Provider} {s : Source} {f : RepositoryFile} {name : Text} {d : Node}

/-- A function that is found stands in the preferred source or in one of the provider. -/
theorem function?_eq_some {t : Source} (h : p.function? name s = some (t, d)) :
    (t = s ∨ t ∈ p.sources) ∧ d ∈ t.functions.map (·.2) := by
  have hmem {u : Source} (h : u.function? name = some d) : d ∈ u.functions.map (·.2) := by
    obtain ⟨before, after, hfunctions, -⟩ := List.lookup_eq_some_iff.mp h
    simp [hfunctions]
  rw [function?] at h
  split at h
  · rename_i hpreferred
    cases h
    exact ⟨.inl rfl, hmem hpreferred⟩
  · obtain ⟨u, hu, h⟩ := List.exists_of_findSome?_eq_some h
    obtain ⟨d', hd, h⟩ := Option.map_eq_some_iff.mp h
    cases h
    exact ⟨.inr hu, hmem hd⟩

namespace Builder

variable {b : Builder}

theorem part_infix {n : Node} {function part : Text} (h : n.text <:+: b.declaration.text)
    (hfunction : b.snippets.function = some function) (hpart : present? n.text = some part) :
    part <:+: function := by
  obtain ⟨rfl, -⟩ := present?_eq_some_iff.mp hfunction
  obtain ⟨rfl, -⟩ := present?_eq_some_iff.mp hpart
  exact Text.dropEnds_infix_dropEnds h

/-- The parts of the source of a builder are from the file of its source. -/
theorem snippets_isFrom (hs : Source.ofFile f = .ok b.source)
    (hd : b.declaration ∈ b.source.functions.map (·.2))
    (hl : b.declaration.returnedLiteral? = some b.literal) : b.snippets.IsFrom f := by
  obtain ⟨hcontent, hkeyword⟩ := Source.function_of_ofFile hs hd
  obtain ⟨hexpression, hbraces⟩ := Node.infix_of_returnedLiteral? hl
  -- the keyword is not blank, so the function is not left out
  have hfunction : b.snippets.function = some b.declaration.text.trim := by
    have hword : ("func" : Text).trim <:+: b.declaration.text.trim :=
      Text.dropEnds_infix_dropEnds (hkeyword.isInfix.map _)
    exact present?_eq_some_iff.mpr ⟨rfl, fun hnil => absurd (hnil ▸ hword) (by decide)⟩
  have hfield {key : String} {part : Text} (h : b.fieldText? key = some part) :
      part <:+: b.declaration.text.trim := by
    obtain ⟨n, hn, hpart⟩ := Option.bind_eq_some_iff.mp h
    exact part_infix ((Node.text_infix_of_fieldValue? hn).trans hbraces) hfunction hpart
  refine ⟨(Source.path_of_ofFile hs).symm, _, hfunction, (Text.trim_infix _).trans hcontent,
    fun part hpart => ?_⟩
  simp only [SnippetBundle.parts, List.mem_cons, List.not_mem_nil, or_false] at hpart
  rcases hpart with hpart | hpart | hpart | hpart | hpart
  · refine part_infix ?_ hfunction hpart.symm
    cases hschema : b.field? "Schema" with
    | none => exact hexpression
    | some n => exact (Node.text_infix_of_fieldValue? hschema).trans hbraces
  all_goals exact hfield hpart.symm

end Builder

/-- The builder that is found under a name is a function of the preferred source or of one of the
provider. -/
theorem builder_eq_ok {b : Builder} (h : p.builder name s = .ok b) :
    (b.source = s ∨ b.source ∈ p.sources) ∧ b.declaration ∈ b.source.functions.map (·.2) ∧
      b.declaration.returnedLiteral? = some b.literal := by
  rw [builder] at h
  split at h
  · cases h
  · rename_i hfunction
    split at h
    · cases h
    · rename_i hliteral
      cases h
      obtain ⟨hsource, hdeclaration⟩ := function?_eq_some hfunction
      exact ⟨hsource, hdeclaration, hliteral⟩

/-- A resource with a bundle is made by a builder. -/
theorem resource_eq_ok {r : Registration} {x : Resource} {bundle : SnippetBundle}
    (h : p.resource r s = .ok x) (hx : x.source = some bundle) :
    ∃ name b, p.builder name s = .ok b ∧ bundle = b.snippets ∧
      x.filePath = some bundle.filePath := by
  rw [resource] at h
  split at h
  · cases h
    exact absurd hx.symm (Option.some_ne_none bundle)
  · rename_i name _
    obtain ⟨b, hb, h⟩ := except_bind_eq_ok.mp h
    rw [builtResource_eq] at h
    cases has : p.builderAttributes b with
    | error i =>
      rw [has] at h
      cases h
    | ok as =>
      rw [has] at h
      cases h
      cases hx
      exact ⟨name, b, hb, rfl, rfl⟩

/-- Each resource of an extraction that has a bundle of parts of its source stands in the file that
the bundle names. The function of the bundle occurs in the content of that file, and the other parts
of the bundle occur in the function. -/
theorem extract_traced {providerPrefix : Text} {files : List RepositoryFile} {parsed ws : List Text}
    {xs : List Resource} (hp : ofFiles providerPrefix files = .ok (p, parsed))
    (h : p.extract = (.ok xs, ws)) :
    ∀ x ∈ xs, ∀ bundle, x.source = some bundle →
      x.filePath = some bundle.filePath ∧ ∃ f ∈ files, bundle.IsFrom f := by
  intro x hx bundle hbundle
  obtain ⟨found, -, hfound, -⟩ := extract_ok h
  obtain ⟨⟨r, s⟩, hf, hresource⟩ := (mem_extract_iff h hfound).mp hx
  have hsources : p.sources = files.filterMap source? := by rw [ofFiles_eq_ok hp]
  have hs : s ∈ p.sources := by
    rw [registrations_eq_ok hfound] at hf
    exact source_mem_of_mem_discovered ((firstOfKeys_sublist _ _).subset hf)
  obtain ⟨name, b, hb, rfl, hpath⟩ := resource_eq_ok hresource hbundle
  obtain ⟨hsource, hdeclaration, hliteral⟩ := builder_eq_ok hb
  have hmem : b.source ∈ files.filterMap source? := by
    rw [← hsources]
    exact hsource.elim (fun heq => heq ▸ hs) id
  obtain ⟨f, hf, hfile⟩ := List.mem_filterMap.mp hmem
  exact ⟨hpath, f, hf, Builder.snippets_isFrom (ofFile_of_source? hfile) hdeclaration hliteral⟩

/-- A map in one file, and in the next the builder that it names, which returns a variable. -/
def distantBuilder : List RepositoryFile := [
  ⟨1, "a.go", "a.go", "go",
    "package p\n\nvar all = map[string]schema.Resource\x7b\"p_x\": widget()\x7d\n", 1⟩,
  ⟨1, "b.go", "b.go", "go",
    "package p\n\nfunc widget() R \x7b\n\tr := R\x7bSchema: fields(), Importer: other(1)\x7d\n" ++
      "\treturn r\n\x7d\n", 1⟩]

/-- The parts of the source of the builder. -/
def distantBundle : SnippetBundle where
  functionName := "widget"
  filePath := "b.go"
  function := some ("func widget() R \x7b\n\tr := R\x7bSchema: fields(), Importer: " ++
    "other(1)\x7d\n\treturn r\n\x7d" : String)
  schema := some ("fields()" : Text)
  customizeDiff := none
  timeouts := none
  stateUpgraders := none
  importer := some ("other(1)" : Text)

set_option maxRecDepth 100000 in
private theorem distantBuilder_found :
    (resources? "p" distantBuilder).map (·.map (·.source)) = some [some distantBundle] := by
  decide +kernel

/-- The parts are from the file of the builder. -/
theorem extract_traced_of_distant :
    ∃ p parsed xs ws, ofFiles "p" distantBuilder = .ok (p, parsed) ∧ p.extract = (.ok xs, ws) ∧
      ∃ x ∈ xs, x.source = some distantBundle ∧ x.filePath = some distantBundle.filePath ∧
        ∃ f ∈ distantBuilder, distantBundle.IsFrom f := by
  obtain ⟨xs, hxs, hsources⟩ := Option.map_eq_some_iff.mp distantBuilder_found
  obtain ⟨x, rfl, hx⟩ := List.map_eq_singleton_iff.mp hsources
  obtain ⟨p, parsed, ws, hp, hextract⟩ := extract_of_resources? hxs (List.cons_ne_nil x [])
  have hmem : x ∈ [x].mergeSort inNameOrder :=
    (List.mergeSort_perm [x] inNameOrder).mem_iff.mpr List.mem_cons_self
  exact ⟨p, parsed, _, ws, hp, hextract, x, hmem, hx,
    extract_traced hp hextract x hmem distantBundle hx⟩

end Provider

end ProviderCatalog.Schema
