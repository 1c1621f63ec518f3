import ProviderCatalog.Go.Source
import ProviderCatalog.Proofs.Go.Literals
import ProviderCatalog.Proofs.Validation.Names
import Mathlib.Data.List.Induction

/-!
# Attributes with nested blocks

An attribute has a nested block if the text of its element mentions the end of the type names of
resources anywhere. An element that is a resource literal always does. Where only the type of an
element ends so and nothing in its braces mentions it, the attribute has a nested block exactly if
the element is a resource literal. The braces of another literal can mention it, though, as the name
of a function in a field for instance.

## Main definitions

* `elementValue?`: the element of a schema literal.
* `IsResourceLiteral`: a value is a resource literal.

## Main results

* `columns_nestedBlock`: when a schema literal has a nested block.
* `Attribute.ofLiteral_nestedBlock`: elements that are resource literals, and nested blocks.
* `Attribute.ofLiteral_misleads`: a nested block without a resource literal.
-/

namespace ProviderCatalog.Schema

open Go (Node Source)

variable {name : Text} {braces v t b : Node} {a : Attribute}

/-! ### Elements -/

/-- The element of a schema literal: the value of the last field that names it. -/
def elementValue? (braces : Node) : Option Node :=
  (braces.keyedElements.filter (·.1.text == ("Elem" : Text))).getLast?.map (·.2)

/-- A value is a composite literal of a resource type, perhaps in parentheses or behind an address
operator. -/
def IsResourceLiteral (v : Node) : Prop :=
  ∃ c t, v.Denotes c ∧ c.kind = .compositeLiteral ∧ c.child? .type = some t ∧
    resourceTypeSuffix <:+ t.text

theorem isResourceLiteral_iff : IsResourceLiteral v ↔
    ((v.unwrap?.bind Node.dereference?).any fun c => c.kind == .compositeLiteral &&
      (c.child? .type).any fun t => t.text.endsWith resourceTypeSuffix) = true := by
  simp only [Option.any_eq_true, Node.unwrap?_bind_dereference?_eq_some_iff, Bool.and_eq_true_iff,
    beq_iff_eq, Text.endsWith, List.isSuffixOf_iff_suffix]
  constructor
  · rintro ⟨c, t, hc, hkind, ht, hsuffix⟩
    exact ⟨c, hc, hkind, t, ht, hsuffix⟩
  · rintro ⟨c, hc, hkind, t, ht, hsuffix⟩
    exact ⟨c, t, hc, hkind, ht, hsuffix⟩

instance (v : Node) : Decidable (IsResourceLiteral v) :=
  decidable_of_iff _ isResourceLiteral_iff.symm

/-- What is spelled as a literal is a resource literal if its type ends so. -/
theorem isResourceLiteral_of_literalParts? (h : v.literalParts? = some (t, b)) :
    IsResourceLiteral v ↔ resourceTypeSuffix <:+ t.text := by
  obtain ⟨c, hc, hkind, ht⟩ := Node.denotes_of_literalParts? h
  constructor
  · rintro ⟨c', t', hc', -, ht', hsuffix⟩
    obtain rfl : c = c' := Node.denotes_unique hc hc'
    obtain rfl : t = t' := Option.some.inj (ht.symm.trans ht')
    exact hsuffix
  · exact fun hsuffix => ⟨c, t, hc, hkind, ht, hsuffix⟩

/-- A resource literal mentions the end of its type name. -/
theorem IsResourceLiteral.mentions (h : IsResourceLiteral v) : resourceTypeSuffix <:+: v.text := by
  obtain ⟨c, t, hc, -, ht, hsuffix⟩ := h
  have htype : t.text <:+: c.text := Node.text_infix_text (Node.chars_infix_of_child? ht)
  exact hsuffix.isInfix.trans (htype.trans hc.text_infix)

/-- A literal mentions the end of the type names of resources in its type or in its braces. -/
theorem mentions_iff (h : v.literalParts? = some (t, b)) :
    resourceTypeSuffix <:+: v.text ↔
      resourceTypeSuffix <:+: t.text ∨ resourceTypeSuffix <:+: b.text := by
  refine Node.infix_text_iff h (by decide) (fun x hx hmem => ?_) (by decide) (by decide)
  have hletters : ∀ p ∈ resourceTypeSuffix,
      CodePoint.satisfies Go.isSeparator p = false := by decide
  exact nomatch hx.symm.trans (hletters _ hmem)

/-! ### Columns -/

/-- The fields before the one of the element leave nested blocks alone. -/
private theorem nestedBlock_of_mem_dropLast {f : Text × (Attribute → Node → Attribute)}
    (hf : f ∈ attributeFields.dropLast) (a : Attribute) (n : Node) :
    (f.2 a n).nestedBlock = a.nestedBlock := by
  simp only [attributeFields, List.dropLast_cons_cons, List.dropLast_singleton, List.mem_cons,
    List.not_mem_nil, or_false] at hf
  rcases hf with rfl | rfl | rfl | rfl | rfl | rfl | rfl | rfl | rfl | rfl | rfl | rfl | rfl | rfl |
    rfl | rfl | rfl | rfl | rfl | rfl <;> rfl

/-- Only the field of the element sets whether there is a nested block. -/
theorem setField_nestedBlock (a : Attribute) (field : Node × Node) :
    (setField a field).nestedBlock = if field.1.text == ("Elem" : Text) then
      field.2.text.contains resourceTypeSuffix else a.nestedBlock := by
  rw [setField]
  split
  · rename_i set hset
    obtain ⟨before, after, hsplit, -⟩ := List.lookup_eq_some_iff.mp hset
    have hmem : (field.1.text, set) ∈
        attributeFields.dropLast ++ [(("Elem" : Text), setElement)] := by
      change (field.1.text, set) ∈ attributeFields
      simp [hsplit]
    rcases List.mem_append.mp hmem with hmem | hmem
    · have hother : ∀ f ∈ attributeFields.dropLast.map (·.1), (f == ("Elem" : Text)) = false := by
        decide
      rw [hother _ (List.mem_map_of_mem hmem)]
      exact nestedBlock_of_mem_dropLast hmem a field.2
    · obtain ⟨hname, rfl⟩ := Prod.mk.inj (List.mem_singleton.mp hmem)
      rw [hname]
      rfl
  · rename_i hnone
    split
    · rename_i hname
      rw [beq_iff_eq.mp hname] at hnone
      exact nomatch hnone
    · rfl

/-- A schema literal has a nested block if its element mentions the end of the type names of
resources. -/
theorem columns_nestedBlock (name : Text) (braces : Node) :
    (columns name braces).nestedBlock =
      (elementValue? braces).any (·.text.contains resourceTypeSuffix) := by
  rw [columns, elementValue?]
  generalize braces.keyedElements = fields
  induction fields using List.reverseRecOn with
  | nil => rfl
  | append_singleton fields field ih =>
    rw [List.foldl_append, List.foldl_cons, List.foldl_nil, setField_nestedBlock,
      List.filter_append, List.filter_singleton]
    cases hname : field.1.text == ("Elem" : Text) with
    | true => simp
    | false => simpa using ih

/-! ### Nested blocks -/

/-- An attribute has a nested block exactly if its element mentions the end of the type names of
resources, so each resource literal makes one. Another literal makes one if its type or its braces
mention it. Where its braces do not, and its type can end so but not mention it otherwise, an
attribute has a nested block exactly if its element is a resource literal. -/
theorem Attribute.ofLiteral_nestedBlock (h : ofLiteral name braces = .ok a) :
    (a.nestedBlock = true ↔ ∃ v ∈ elementValue? braces, resourceTypeSuffix <:+: v.text) ∧
      ∀ v ∈ elementValue? braces, (IsResourceLiteral v → a.nestedBlock = true) ∧
        ∀ t b, v.literalParts? = some (t, b) →
          (a.nestedBlock = true ↔
            resourceTypeSuffix <:+: t.text ∨ resourceTypeSuffix <:+: b.text) ∧
          (¬resourceTypeSuffix <:+: b.text →
            (resourceTypeSuffix <:+: t.text → resourceTypeSuffix <:+ t.text) →
              (a.nestedBlock = true ↔ IsResourceLiteral v)) := by
  obtain rfl := eq_columns_of_ofLiteral h
  have hmentions : (columns name braces).nestedBlock = true ↔
      ∃ v ∈ elementValue? braces, resourceTypeSuffix <:+: v.text := by
    simp only [columns_nestedBlock, Option.any_eq_true, Text.contains_eq_true_iff, Option.mem_def]
  refine ⟨hmentions, fun v hv => ?_⟩
  have helement : (columns name braces).nestedBlock = true ↔ resourceTypeSuffix <:+: v.text := by
    rw [hmentions]
    constructor
    · rintro ⟨v', hv', hmention⟩
      obtain rfl := Option.mem_unique hv hv'
      exact hmention
    · exact fun hmention => ⟨v, hv, hmention⟩
  refine ⟨fun hresource => helement.mpr hresource.mentions, fun t b hparts => ?_⟩
  have hsides := helement.trans (mentions_iff hparts)
  refine ⟨hsides, fun hbraces htype => ?_⟩
  rw [hsides, isResourceLiteral_of_literalParts? hparts, or_iff_left hbraces]
  exact ⟨htype, List.IsSuffix.isInfix⟩

/-- The braces of the literal that the function `f` of a source returns. -/
def returnedBraces? (content : Text) : Option Node := do
  let s ← (Source.ofContent "a.go" content).toOption
  let f ← s.function? "f"
  let l ← f.returnedLiteral?
  return l.braces

/-- A schema literal whose element is a resource literal. -/
def resourceElement : Text :=
  "package p\n\nfunc f() *schema.Schema \x7b\n\treturn &schema.Schema\x7b" ++
    "Elem: &schema.Resource\x7bSchema: fields()\x7d\x7d\n\x7d\n"

set_option maxRecDepth 100000 in
private theorem resourceElement_nests :
    (returnedBraces? resourceElement).any (fun braces =>
      (Attribute.ofLiteral "rule" braces).isOk && (elementValue? braces).any fun v =>
        v.literalParts?.any fun (t, b) =>
          t.text == ("schema.Resource" : Text) && !b.text.contains resourceTypeSuffix) = true := by
  decide +kernel

/-- The element of a resource type makes a nested block, as it is a resource literal. -/
theorem Attribute.ofLiteral_nestedBlock_of_resource :
    ∃ braces v a, returnedBraces? resourceElement = some braces ∧
      ofLiteral "rule" braces = .ok a ∧ v ∈ elementValue? braces ∧ a.nestedBlock = true ∧
      IsResourceLiteral v := by
  obtain ⟨braces, hbraces, h⟩ := (Option.any_eq_true _ _).mp resourceElement_nests
  obtain ⟨hok, h⟩ := Bool.and_eq_true_iff.mp h
  obtain ⟨v, hv, h⟩ := (Option.any_eq_true _ _).mp h
  obtain ⟨⟨t, b⟩, hparts, h⟩ := (Option.any_eq_true _ _).mp h
  obtain ⟨htype, hinner⟩ := Bool.and_eq_true_iff.mp h
  cases hattribute : ofLiteral "rule" braces with
  | error i =>
    rw [hattribute] at hok
    exact nomatch hok
  | ok a =>
    have hsuffix : resourceTypeSuffix <:+ t.text := by
      rw [beq_iff_eq.mp htype]
      decide
    have hinner' : ¬resourceTypeSuffix <:+: b.text := by
      rw [← Text.contains_eq_true_iff]
      simpa using hinner
    have hresource := (isResourceLiteral_of_literalParts? hparts).mpr hsuffix
    have hnested := ((ofLiteral_nestedBlock hattribute).2 v hv).2 t b hparts
    exact ⟨braces, v, a, hbraces, hattribute, hv,
      (hnested.2 hinner' fun _ => hsuffix).mpr hresource, hresource⟩

/-- A schema literal whose element is another schema literal, with a function named for resources in
a field. -/
def validatedElement : Text :=
  "package p\n\nfunc f() *schema.Schema \x7b\n\treturn &schema.Schema\x7b" ++
    "Elem: &schema.Schema\x7bValidateFunc: validate.ResourceID\x7d\x7d\n\x7d\n"

set_option maxRecDepth 100000 in
private theorem validatedElement_nests :
    (returnedBraces? validatedElement).any (fun braces =>
      (Attribute.ofLiteral "rule" braces).toOption.any (·.nestedBlock) &&
        (elementValue? braces).all fun v => !decide (IsResourceLiteral v)) = true := by
  decide +kernel

/-- A nested block does not mean that the element is a resource literal: the braces of another
literal can mention the end of the type names of resources. -/
theorem Attribute.ofLiteral_misleads :
    ¬∀ (content name : Text) (braces : Node) (a : Attribute),
      returnedBraces? content = some braces → ofLiteral name braces = .ok a →
        a.nestedBlock = true → ∃ v ∈ elementValue? braces, IsResourceLiteral v := by
  intro h
  obtain ⟨braces, hbraces, hnests⟩ := (Option.any_eq_true _ _).mp validatedElement_nests
  obtain ⟨hnested, hother⟩ := Bool.and_eq_true_iff.mp hnests
  obtain ⟨a, ha, hnested⟩ := (Option.any_eq_true _ _).mp hnested
  cases hattribute : ofLiteral "rule" braces with
  | error i =>
    rw [hattribute] at ha
    exact nomatch ha
  | ok a' =>
    rw [hattribute] at ha
    obtain rfl : a' = a := Option.some.inj ha
    obtain ⟨v, hv, hresource⟩ := h _ _ braces a' hbraces hattribute hnested
    rw [Option.mem_def.mp hv] at hother
    simp [hresource] at hother

end ProviderCatalog.Schema
