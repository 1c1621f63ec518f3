import ProviderCatalog.Proofs.Go.Literals
import ProviderCatalog.Proofs.Validation.Names
import Mathlib.Data.List.Induction

/-!
# The columns that the fields of a literal set

Each recognised field of a schema literal sets columns of its own, and sets them alike whatever the
other fields are. So a column is read off the last field that owns it. If no column has two owners
in a literal, then the order of the fields does not matter, and neither do further elements without
keys or with other keys.

## Main definitions

* `Attribute.column?`: the value of a column of an attribute.
* `columnsOf`: the columns that a field owns.
* `Node.elements`: the elements of a literal, apart from what precedes them.
* `Node.fields`: the names and values of the fields of a literal.
* `readColumn`, `isSpelledOut`: what a value puts in a column, and whether string literals spell it.
* `IsForeign`: elements that are not recognised.
* `DistinctFields`: no column has two owners in a literal.

## Main results

* `Attribute.ext_column?`: attributes with the same columns.
* `column?_setNamed`: what one field does.
* `column?_foldl_setNamed`: what several fields do.
* `Attribute.ofLiteral_orderless`: the order of the elements of a literal.
-/

namespace ProviderCatalog

/-! ### Entries under text keys -/

namespace Datum

/-- The entries of a mapping whose keys are texts. -/
def textEntries : Datum → List (Text × Datum)
  | mapping entries => entries.filterMap fun
    | (text k, v) => some (k, v)
    | _ => none
  | _ => []

theorem get?_eq_lookup (d : Datum) (k : Text) : d.get? k = d.textEntries.lookup k := by
  cases d with
  | mapping entries =>
    rw [get?, textEntries]
    induction entries with
    | nil => rfl
    | cons e entries ih =>
      obtain ⟨key, v⟩ := e
      cases key with
      | text t =>
        rw [lookup, ih, List.filterMap_cons]
        dsimp only
        rw [List.lookup_cons]
        by_cases h : t = k
        · simp [h]
        · simp [h, beq_eq_false_iff_ne.mpr (Ne.symm h)]
      | _ => exact ih
  | _ => rfl

theorem ofText?_injective : Function.Injective ofText? := by
  intro s t h
  cases s <;> cases t <;> simp_all [ofText?]

theorem ofInt?_injective : Function.Injective ofInt? := by
  intro m n h
  cases m <;> cases n <;> simp_all [ofInt?]

end Datum

namespace Schema

open Go (Node)

variable {a a' : Attribute} {c : Text} {n : Node}

/-! ### Columns of an attribute -/

/-- The value of a column of an attribute. -/
def Attribute.column? (a : Attribute) (c : Text) : Option Datum := a.toDatum.get? c

/-- Attributes with the same columns are the same. -/
theorem Attribute.ext_column? (h : ∀ c, a.column? c = a'.column? c) : a = a' := by
  have text {s t : Text} (h : some (Datum.text s) = some (Datum.text t)) : s = t :=
    Datum.text.inj (Option.some.inj h)
  have flag {s t : Bool} (h : some (Datum.bool s) = some (Datum.bool t)) : s = t :=
    Datum.bool.inj (Option.some.inj h)
  have text? {s t : Option Text} (h : some (Datum.ofText? s) = some (.ofText? t)) : s = t :=
    Datum.ofText?_injective (Option.some.inj h)
  have count? {s t : Option Int} (h : some (Datum.ofInt? s) = some (.ofInt? t)) : s = t :=
    Datum.ofInt?_injective (Option.some.inj h)
  cases a
  cases a'
  rw [Attribute.mk.injEq]
  exact ⟨text (h "name"), text? (h "type"), flag (h "required"), flag (h "optional"),
    flag (h "computed"), flag (h "force_new"), flag (h "sensitive"), text? (h "deprecated"),
    text? (h "description"), text? (h "conflicts_with"), text? (h "exactly_one_of"),
    text? (h "at_least_one_of"), text? (h "required_with"), count? (h "max_items"),
    count? (h "min_items"), text? (h "elem_type"), text? (h "elem_summary"),
    flag (h "nested_block"), text? (h "validation"), text? (h "diff_suppress"),
    text? (h "default_value"), text? (h "state_func"), text? (h "set_func")⟩

/-- The recognised fields of schema literals, with the columns that they own. -/
def fieldColumns : List (Text × List Text) := [
  ("Required", ["required"]), ("Optional", ["optional"]), ("Computed", ["computed"]),
  ("ForceNew", ["force_new"]), ("Sensitive", ["sensitive"]), ("Deprecated", ["deprecated"]),
  ("Description", ["description"]), ("Default", ["default_value"]),
  ("ConflictsWith", ["conflicts_with"]), ("ExactlyOneOf", ["exactly_one_of"]),
  ("AtLeastOneOf", ["at_least_one_of"]), ("RequiredWith", ["required_with"]),
  ("MaxItems", ["max_items"]), ("MinItems", ["min_items"]), ("Type", ["type"]),
  ("ValidateFunc", ["validation"]), ("ValidateDiagFunc", ["validation"]),
  ("DiffSuppressFunc", ["diff_suppress"]), ("StateFunc", ["state_func"]), ("Set", ["set_func"]),
  ("Elem", ["elem_type", "elem_summary", "nested_block"])]

/-- The columns that a field owns, none if it is not recognised. -/
def columnsOf (field : Text) : List Text := (fieldColumns.lookup field).getD []

theorem mem_attributeFields {field : Text} {set : Attribute → Node → Attribute}
    (h : attributeFields.lookup field = some set) : (field, set) ∈ attributeFields := by
  obtain ⟨before, after, hsplit, -⟩ := List.lookup_eq_some_iff.mp h
  simp [hsplit]

theorem mem_fieldColumns {field : Text} (h : c ∈ columnsOf field) :
    (field, columnsOf field) ∈ fieldColumns := by
  rw [columnsOf] at h ⊢
  cases hcs : fieldColumns.lookup field with
  | none =>
    rw [hcs] at h
    exact absurd h List.not_mem_nil
  | some cs =>
    obtain ⟨before, after, hsplit, -⟩ := List.lookup_eq_some_iff.mp hcs
    simp [hsplit]

/-- A field that is not recognised owns no columns. -/
theorem columnsOf_eq_nil {field : Text} (h : attributeFields.lookup field = none) :
    columnsOf field = [] := by
  have hnames : attributeFields.map (·.1) = fieldColumns.map (·.1) := rfl
  have hnone : fieldColumns.lookup field = none := by
    rw [List.lookup_eq_none_iff] at h ⊢
    have hall : ∀ k ∈ attributeFields.map (·.1), (field == k) = false := by simpa using h
    rw [hnames] at hall
    simpa using hall
  rw [columnsOf, hnone]
  rfl

/-! ### One field -/

theorem keys_textEntries (a a' : Attribute) :
    a.toDatum.textEntries.map (·.1) = a'.toDatum.textEntries.map (·.1) := rfl

/-- A recognised field sets its columns alike, whatever stands in them, and no others. -/
theorem textEntries_set (a a' : Attribute) (n : Node) :
    (attributeFields.map fun f => (f.2 a n).toDatum.textEntries) =
      attributeFields.map fun f => List.zipWith (fun e e' => if e.1 ∈ columnsOf f.1 then e' else e)
        a.toDatum.textEntries (f.2 a' n).toDatum.textEntries := by
  rfl

theorem lookup_zipWith {P : Text → Prop} [DecidablePred P] {es es' : List (Text × Datum)}
    (h : es.map (·.1) = es'.map (·.1)) (c : Text) :
    (List.zipWith (fun e e' => if P e.1 then e' else e) es es').lookup c =
      if P c then es'.lookup c else es.lookup c := by
  induction es generalizing es' with
  | nil =>
    obtain rfl := List.map_eq_nil_iff.mp h.symm
    simp
  | cons e es ih =>
    obtain ⟨⟨k, v'⟩, es', rfl, hk, hrest⟩ := List.map_eq_cons_iff.mp h.symm
    obtain ⟨k', v⟩ := e
    obtain rfl : k = k' := hk
    have hpair : (if P k then (k, v') else (k, v)) = (k, if P k then v' else v) :=
      (apply_ite (Prod.mk k) (P k) v' v).symm
    simp only [List.zipWith_cons_cons, hpair, List.lookup_cons, ih hrest.symm]
    by_cases hkey : c = k
    · rw [hkey, beq_self_eq_true]
      exact apply_ite some (P k) v' v
    · rw [beq_eq_false_iff_ne.mpr hkey]

/-- An attribute with the columns of a field set, if the field is recognised. -/
def setNamed (a : Attribute) (field : Text × Node) : Attribute :=
  match attributeFields.lookup field.1 with
  | some set => set a field.2
  | none => a

/-- What a field puts in its columns does not depend on what stands there, and it leaves the other
columns alone. -/
theorem column?_setNamed (a a' : Attribute) (field : Text × Node) (c : Text) :
    (setNamed a field).column? c =
      if c ∈ columnsOf field.1 then (setNamed a' field).column? c else a.column? c := by
  rw [setNamed, setNamed]
  split
  · rename_i set hset
    have hentries := List.map_inj_left.mp (textEntries_set a a' field.2) _
      (mem_attributeFields hset)
    simp only [Attribute.column?, Datum.get?_eq_lookup]
    rw [hentries, lookup_zipWith (keys_textEntries _ _) c]
  · rename_i hnone
    simp [columnsOf_eq_nil hnone]

/-! ### Several fields -/

/-- The fields that own a column. -/
def owners (c : Text) (fields : List (Text × Node)) : List (Text × Node) :=
  fields.filter fun field => c ∈ columnsOf field.1

theorem owners_concat (c : Text) (fields : List (Text × Node)) (field : Text × Node) :
    owners c (fields ++ [field]) =
      if c ∈ columnsOf field.1 then owners c fields ++ [field] else owners c fields := by
  rw [owners, owners, List.filter_append, List.filter_singleton]
  by_cases hc : c ∈ columnsOf field.1
  · simp [hc]
  · simp [hc]

/-- A column is set by the last field that owns it. -/
theorem column?_foldl_setNamed (c : Text) (a : Attribute) (fields : List (Text × Node)) :
    (fields.foldl setNamed a).column? c = match (owners c fields).getLast? with
      | some field => (setNamed a field).column? c
      | none => a.column? c := by
  induction fields using List.reverseRecOn with
  | nil => rfl
  | append_singleton fields field ih =>
    rw [List.foldl_append, List.foldl_cons, List.foldl_nil, column?_setNamed _ a, ih, owners_concat]
    by_cases hc : c ∈ columnsOf field.1
    · simp [hc]
    · simp [hc]

/-- Fields set the columns alike of which the same field is the last owner. -/
theorem foldl_setNamed_congr {fields fields' : List (Text × Node)}
    (h : (owners c fields').getLast? = (owners c fields).getLast?) (a : Attribute) :
    (fields'.foldl setNamed a).column? c = (fields.foldl setNamed a).column? c := by
  rw [column?_foldl_setNamed, column?_foldl_setNamed, h]

/-! ### What a column takes -/

/-- The columns of flags. -/
def flagColumns : List Text := ["required", "optional", "computed", "force_new", "sensitive"]

/-- The columns of counts. -/
def countColumns : List Text := ["max_items", "min_items"]

/-- The columns of single strings. -/
def stringColumns : List Text := ["deprecated", "description", "default_value"]

/-- The columns of lists. -/
def listColumns : List Text :=
  ["conflicts_with", "exactly_one_of", "at_least_one_of", "required_with"]

/-- What a value puts in a column. -/
def readColumn (c : Text) (n : Node) : Datum :=
  if c ∈ flagColumns then .bool n.isTrue
  else if c ∈ countColumns then .ofInt? (n.intValue?.map Int.ofNat)
  else if c ∈ stringColumns then .ofText? (stringOrText? n)
  else if c ∈ listColumns then .ofText? (listText? n)
  else if c = "elem_summary" then .ofText? (elementSummary? n)
  else if c = "nested_block" then .bool (n.text.contains resourceTypeSuffix)
  else .ofText? (present? n.text)

/-- Whether string literals spell what a value puts in a column: the value, the elements of a list
or the fields of an element, of which none may be blank since the text of a blank one is taken. -/
def isSpelledOut (c : Text) (n : Node) : Bool :=
  if c ∈ stringColumns then n.stringValue?.isSome
  else if c ∈ listColumns then
    n.literalBody?.any fun b => b.listElements.all (·.stringValue?.isSome)
  else c == "elem_summary" &&
    n.literalBody?.any fun b => b.keyedElements.all fun e => (e.2.stringValue?.bind present?).isSome

end Schema

/-! ### Elements -/

namespace Go.Node

/-- The name and the value of an element with a key. -/
def nameAndValue? (e : Node) : Option (Text × Node) :=
  e.keyAndValue?.map fun x => (x.1.text, x.2)

theorem nameAndValue?_eq (e : Node) : e.nameAndValue? = if e.kind == .keyedElement then
    match e.phrases with
    | k :: v :: _ => (k.unwrap?.map text).bind fun name => v.unwrap?.map (name, ·)
    | _ => none
  else none := by
  rw [nameAndValue?, keyAndValue?]
  split
  · rcases e.phrases with _ | ⟨k, _ | ⟨v, rest⟩⟩
    · rfl
    · rfl
    · dsimp only
      cases k.unwrap? <;> cases v.unwrap? <;> rfl
  · rfl

/-- The name and the value of an element do not depend on what precedes the element. -/
theorem nameAndValue?_bare (e : Node) : e.bare.nameAndValue? = e.nameAndValue? := by
  rw [nameAndValue?_eq, nameAndValue?_eq, kind_bare]
  fun_cases bare e with
  | case1 => rfl
  | case2 => rfl
  | case3 k r n cs =>
    simp only [phrases_branch, List.map_cons, List.filter_cons, isNamed_bare, isComment_bare]
    cases n.isNamed && !n.isComment with
    | false => rfl
    | true =>
      cases (cs.map (·.2)).filter fun m => m.isNamed && !m.isComment <;>
        simp [map_text_unwrap?_bare]

/-- The elements of a literal, without the comments between them. -/
def elements (b : Node) : List Node := b.phrases.map bare

/-- The names and the values of the fields of a literal. -/
def fields (b : Node) : List (Text × Node) := b.keyedElements.map fun x => (x.1.text, x.2)

theorem fields_eq_filterMap (b : Node) : b.fields = b.elements.filterMap nameAndValue? := by
  rw [fields, elements, keyedElements_eq, List.map_filterMap, List.filterMap_map]
  exact List.filterMap_congr fun e _ => (nameAndValue?_bare e).symm

end Go.Node

namespace Schema

open Go (Node)

variable {b b' : Node}

/-! ### Literals -/

theorem columns_eq_foldl (name : Text) (b : Node) :
    columns name b = b.fields.foldl setNamed (.named name) := by
  rw [columns, Node.fields, List.foldl_map]
  rfl

/-- An element without a key, or with a key that is not recognised. -/
def IsForeign (e : Node) : Prop :=
  ∀ field ∈ e.nameAndValue?, attributeFields.lookup field.1 = none

instance (e : Node) : Decidable (IsForeign e) :=
  inferInstanceAs (Decidable (∀ field ∈ e.nameAndValue?, attributeFields.lookup field.1 = none))

/-- The names of the fields of a literal that are recognised. -/
def recognisedNames (b : Node) : List Text :=
  (b.fields.map (·.1)).filter fun name => (attributeFields.lookup name).isSome

/-- The recognised fields of a literal have different names, and at most one of them validates. -/
structure DistinctFields (b : Node) : Prop where
  nodup : (recognisedNames b).Nodup
  validation : ("ValidateFunc" : Text) ∈ recognisedNames b →
    ("ValidateDiagFunc" : Text) ∉ recognisedNames b

/-- Only the two fields that validate own a column together. -/
theorem eq_or_validation_of_mem_columnsOf {name name' c : Text} (h : c ∈ columnsOf name)
    (h' : c ∈ columnsOf name') : name = name' ∨
      (name = "ValidateFunc" ∧ name' = "ValidateDiagFunc") ∨
      (name = "ValidateDiagFunc" ∧ name' = "ValidateFunc") := by
  have htable : ∀ p ∈ fieldColumns, ∀ p' ∈ fieldColumns, ∀ c ∈ p.2, c ∈ p'.2 → p.1 = p'.1 ∨
      (p.1 = "ValidateFunc" ∧ p'.1 = "ValidateDiagFunc") ∨
      (p.1 = "ValidateDiagFunc" ∧ p'.1 = "ValidateFunc") := by
    decide +kernel
  exact htable _ (mem_fieldColumns h) _ (mem_fieldColumns h') c h h'

theorem DistinctFields.length_owners_le_one (h : DistinctFields b) (c : Text) :
    (owners c b.fields).length ≤ 1 := by
  have hown {name : Text} (hc : c ∈ columnsOf name) : (attributeFields.lookup name).isSome := by
    by_contra hnone
    rw [columnsOf_eq_nil (Option.not_isSome_iff_eq_none.mp hnone)] at hc
    exact List.not_mem_nil hc
  have hnames : ((owners c b.fields).map (·.1)).Sublist (recognisedNames b) := by
    rw [recognisedNames, List.filter_map]
    exact (List.monotone_filter_right _ fun _ hc => hown (of_decide_eq_true hc)).map _
  have hmem {x : Text × Node} (hx : x ∈ owners c b.fields) :
      c ∈ columnsOf x.1 ∧ x.1 ∈ recognisedNames b :=
    ⟨of_decide_eq_true (List.mem_filter.mp hx).2, hnames.subset (List.mem_map_of_mem hx)⟩
  match howners : owners c b.fields with
  | [] => exact Nat.zero_le 1
  | [x] => exact Nat.le_refl 1
  | x :: y :: rest =>
    obtain ⟨hx, hx'⟩ := hmem (x := x) (by simp [howners])
    obtain ⟨hy, hy'⟩ := hmem (x := y) (by simp [howners])
    have hne : x.1 ≠ y.1 := by
      have hnodup := h.nodup.sublist hnames
      rw [howners, List.map_cons, List.map_cons, List.nodup_cons, List.mem_cons] at hnodup
      exact fun heq => hnodup.1 (.inl heq)
    rcases eq_or_validation_of_mem_columnsOf hx hy with heq | ⟨hv, hv'⟩ | ⟨hv, hv'⟩
    · exact absurd heq hne
    · exact absurd (hv' ▸ hy') (h.validation (hv ▸ hx'))
    · exact absurd (hv ▸ hx') (h.validation (hv' ▸ hy'))

/-! ### The order of the elements -/

theorem owners_perm {fields fields' : List (Text × Node)} (h : fields'.Perm fields)
    (hone : (owners c fields).length ≤ 1) : owners c fields' = owners c fields := by
  have hperm : (owners c fields').Perm (owners c fields) := h.filter _
  match howners : owners c fields with
  | [] => exact List.perm_nil.mp (howners ▸ hperm)
  | [x] => exact List.perm_singleton.mp (howners ▸ hperm)
  | x :: y :: rest => exact absurd hone (by simp [howners])

/-- Elements that are not recognised own no column. -/
theorem owners_filterMap_foreign {extra : List Node} (h : ∀ e ∈ extra, IsForeign e) :
    owners c (extra.filterMap Node.nameAndValue?) = [] := by
  refine List.filter_eq_nil_iff.mpr fun field hfield hc => ?_
  obtain ⟨e, he, hfield⟩ := List.mem_filterMap.mp hfield
  rw [columnsOf_eq_nil (h e he field hfield)] at hc
  simp at hc

/-- A literal sets the columns that another one sets whose elements it has in some order, perhaps
between others. -/
theorem columns_perm (hdistinct : DistinctFields b) {extra : List Node}
    (h : b'.elements.Perm (b.elements ++ extra)) (hextra : ∀ e ∈ extra, IsForeign e)
    (name : Text) : columns name b' = columns name b := by
  refine Attribute.ext_column? fun c => ?_
  have hfields := h.filterMap Node.nameAndValue?
  rw [List.filterMap_append, ← Node.fields_eq_filterMap, ← Node.fields_eq_filterMap] at hfields
  have howners :
      owners c (b.fields ++ extra.filterMap Node.nameAndValue?) = owners c b.fields := by
    rw [owners, List.filter_append, ← owners, ← owners, owners_filterMap_foreign hextra,
      List.append_nil]
  have hone := hdistinct.length_owners_le_one c
  rw [← howners] at hone
  rw [columns_eq_foldl, columns_eq_foldl]
  exact foldl_setNamed_congr (by rw [owners_perm hfields hone, howners]) _

/-- Literals that differ in one field set the columns alike that the field does not own. -/
theorem column?_columns_congr {field : Text}
    (h : b'.fields.filter (·.1 != field) = b.fields.filter (·.1 != field))
    (hc : c ∉ columnsOf field) (name : Text) :
    (columns name b').column? c = (columns name b).column? c := by
  have howners (fs : List (Text × Node)) : owners c fs = owners c (fs.filter (·.1 != field)) := by
    rw [owners, owners, List.filter_filter]
    refine List.filter_congr fun f _ => ?_
    by_cases hf : f.1 = field
    · simp [hf, hc]
    · simp [hf]
  rw [columns_eq_foldl, columns_eq_foldl]
  exact foldl_setNamed_congr (by rw [howners b'.fields, h, ← howners]) _

/-- What an attribute is made of matters only through its columns. -/
theorem Attribute.map_ofLiteral_congr {α : Type} {f : Attribute → α} {name : Text}
    (h : ∀ n, f (columns n b') = f (columns n b)) :
    (ofLiteral name b').map f = (ofLiteral name b).map f := by
  by_cases hne : name = []
  · subst hne
    rfl
  · rw [ofLiteral, ofLiteral, Checked.nonEmptyText_eq hne]
    cases name.isUnicode with
    | false => rfl
    | true => exact congrArg Except.ok (h name)

/-- The attribute that a schema literal describes depends neither on the order of the elements nor
on elements without keys or with keys that are not recognised; and a field matters only to the
columns that it owns. -/
theorem Attribute.ofLiteral_orderless (name : Text) (b b' : Node) :
    (∀ extra : List Node, DistinctFields b → b'.elements.Perm (b.elements ++ extra) →
      (∀ e ∈ extra, IsForeign e) → ofLiteral name b' = ofLiteral name b) ∧
    ∀ field c : Text, b'.fields.filter (·.1 != field) = b.fields.filter (·.1 != field) →
      c ∉ columnsOf field →
      (ofLiteral name b').map (·.column? c) = (ofLiteral name b).map (·.column? c) := by
  refine ⟨fun extra hdistinct hperm hextra => ?_, fun field c hfields hc => ?_⟩
  · have heq : (ofLiteral name b').map id = (ofLiteral name b).map id :=
      map_ofLiteral_congr (columns_perm hdistinct hperm hextra)
    simpa using heq
  · exact map_ofLiteral_congr (column?_columns_congr hfields hc)

/-- The braces of a literal, with what stands between them. -/
def braced (elements : List Node) : Node :=
  .branch .literalValue <| (.part, .leaf .mark [] "\x7b".toList) ::
    elements.map (.part, ·) ++ [(.part, .leaf .mark [] "\x7d".toList)]

/-- An element of one token, with what precedes it. -/
def single (leading : String) (kind : Go.Kind) (token : String) : Node :=
  .branch .literalElement [(.part, .leaf kind leading.toList token.toList)]

/-- A keyed element whose key and whose value are one token each, with what precedes it. -/
def keyed (leading key : String) (kind : Go.Kind) (value : String) : Node :=
  .branch .keyedElement [(.key, single leading .identifier key),
    (.part, .leaf .mark [] [':']), (.value, single " " kind value)]

/-- A schema literal with two fields. -/
def twoFields : Node :=
  braced [keyed "" "Required" .true "true", keyed " " "Type" .identifier "String"]

/-- The same fields the other way round, between them an element without a key and another one
whose key is not recognised. -/
def twoFieldsReversed : Node :=
  braced [keyed "" "Type" .identifier "String", single " " .nil "nil",
    keyed "\n" "Custom" .false "false", keyed "\n" "Required" .true "true"]

/-- The two fields, one of them with another value. -/
def twoFieldsOptional : Node :=
  braced [keyed "" "Required" .false "false", keyed " " "Type" .identifier "String"]

theorem Attribute.ofLiteral_orderless_of_reversed :
    ofLiteral "size" twoFieldsReversed = ofLiteral "size" twoFields ∧
      (ofLiteral "size" twoFieldsOptional).map (·.column? "type") =
        (ofLiteral "size" twoFields).map (·.column? "type") := by
  have hdistinct : DistinctFields twoFields := ⟨by decide +kernel, by decide +kernel⟩
  let others := [single "" .nil "nil", keyed "" "Custom" .false "false"]
  have hperm : twoFieldsReversed.elements.Perm (twoFields.elements ++ others) :=
    @List.perm_append_comm _ (keyed "" "Type" .identifier "String" :: others)
      [keyed "" "Required" .true "true"]
  have hforeign : ∀ e ∈ others, IsForeign e := by
    decide +kernel
  exact ⟨(ofLiteral_orderless "size" twoFields twoFieldsReversed).1 _ hdistinct hperm hforeign,
    (ofLiteral_orderless "size" twoFields twoFieldsOptional).2 "Required" "type" rfl (by decide)⟩

end Schema

end ProviderCatalog
