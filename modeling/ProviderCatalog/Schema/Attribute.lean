import ProviderCatalog.Go.Value
import ProviderCatalog.Schema.Naming
import ProviderCatalog.Text.Blank
import ProviderCatalog.Validation.Record

/-!
# Attributes of a resource

An attribute is read off a schema literal: each field of the literal that is recognised sets its own
column, the last of several fields for one column counting, and other fields are passed over.

## Main definitions

* `Attribute`, `Attribute.check`: attributes, also read from a datum.
* `attributeFields`: the recognised fields with the columns that they set.
* `Attribute.ofLiteral`: the attribute that a schema literal describes.
* `breakingChanges`: what changing the attributes of a resource can break.
-/

namespace ProviderCatalog.Schema

open Go (Node)

/-- An attribute of a resource. -/
structure Attribute where
  name : Text
  type : Option Text
  required : Bool
  optional : Bool
  computed : Bool
  forceNew : Bool
  sensitive : Bool
  deprecated : Option Text
  description : Option Text
  conflictsWith : Option Text
  exactlyOneOf : Option Text
  atLeastOneOf : Option Text
  requiredWith : Option Text
  maxItems : Option Int
  minItems : Option Int
  elementType : Option Text
  elementSummary : Option Text
  /-- Whether the elements are schema resources themselves. -/
  nestedBlock : Bool
  validation : Option Text
  diffSuppress : Option Text
  defaultValue : Option Text
  stateFunction : Option Text
  setFunction : Option Text
deriving DecidableEq, Repr

namespace Attribute

/-- The name of an attribute in messages. -/
def recordName : String := "ProviderAttribute"

/-- Reads an attribute from a datum. -/
def check : Datum → Checked Attribute :=
  .record fun d =>
    let flag (name : String) := Checked.withDefault d name false .bool
    let text (name : String) := Checked.optional d name .text
    let count (name : String) := Checked.optional d name .int
    Attribute.mk <$> .required d "name" .nonEmptyText <*> text "type" <*> flag "required"
      <*> flag "optional" <*> flag "computed" <*> flag "force_new" <*> flag "sensitive"
      <*> text "deprecated" <*> text "description" <*> text "conflicts_with"
      <*> text "exactly_one_of" <*> text "at_least_one_of" <*> text "required_with"
      <*> count "max_items" <*> count "min_items" <*> text "elem_type" <*> text "elem_summary"
      <*> flag "nested_block" <*> text "validation" <*> text "diff_suppress"
      <*> text "default_value" <*> text "state_func" <*> text "set_func"

/-- An attribute as a datum. -/
def toDatum (a : Attribute) : Datum :=
  .ofFields [("name", .text a.name), ("type", .ofText? a.type), ("required", .bool a.required),
    ("optional", .bool a.optional), ("computed", .bool a.computed),
    ("force_new", .bool a.forceNew), ("sensitive", .bool a.sensitive),
    ("deprecated", .ofText? a.deprecated), ("description", .ofText? a.description),
    ("conflicts_with", .ofText? a.conflictsWith), ("exactly_one_of", .ofText? a.exactlyOneOf),
    ("at_least_one_of", .ofText? a.atLeastOneOf), ("required_with", .ofText? a.requiredWith),
    ("max_items", .ofInt? a.maxItems), ("min_items", .ofInt? a.minItems),
    ("elem_type", .ofText? a.elementType), ("elem_summary", .ofText? a.elementSummary),
    ("nested_block", .bool a.nestedBlock), ("validation", .ofText? a.validation),
    ("diff_suppress", .ofText? a.diffSuppress), ("default_value", .ofText? a.defaultValue),
    ("state_func", .ofText? a.stateFunction), ("set_func", .ofText? a.setFunction)]

/-- An attribute as a datum in its brief form, without what is absent or does not hold. -/
def toBriefDatum (a : Attribute) : Datum := a.toDatum.sparse

/-- An attribute of which only the name is known. -/
def named (name : Text) : Attribute where
  name := name
  type := none
  required := false
  optional := false
  computed := false
  forceNew := false
  sensitive := false
  deprecated := none
  description := none
  conflictsWith := none
  exactlyOneOf := none
  atLeastOneOf := none
  requiredWith := none
  maxItems := none
  minItems := none
  elementType := none
  elementSummary := none
  nestedBlock := false
  validation := none
  diffSuppress := none
  defaultValue := none
  stateFunction := none
  setFunction := none

end Attribute

/-! ### Columns -/

/-- A text without outer blanks, or nothing if it is blank. -/
def present? (t : Text) : Option Text :=
  let t := t.trim
  if t.isEmpty then none else some t

/-- The string that an expression spells, or else its text, unless it is the null value. -/
def stringOrText? (n : Node) : Option Text :=
  match n.stringValue? with
  | some t => present? t
  | none => do
    let n ← n.unwrap?
    if n.kind == .nil then none else present? n.text

/-- The elements of a list literal with commas between them, or the text of another expression. -/
def listText? (n : Node) : Option Text :=
  match n.literalBody? with
  | none => present? n.text
  | some b =>
    let t := Text.join ", " (b.listElements.filterMap stringOrText?)
    if t.isEmpty then none else some t

/-- A field of an element literal with its value. -/
def fieldSummary? (field : Node × Node) : Option Text :=
  let name := field.1.text
  if name.isEmpty then none
  else some (name ++ "=" ++ (stringOrText? field.2).getD field.2.text)

/-- The fields of an element literal with their values, or the text of another expression. -/
def elementSummary? (n : Node) : Option Text :=
  match n.literalBody? with
  | none => present? n.text
  | some b =>
    let t := Text.join ", " (b.keyedElements.filterMap fieldSummary?)
    if t.isEmpty then none else some t

/-- An attribute with the columns that describe its elements. -/
def setElement (a : Attribute) (n : Node) : Attribute :=
  { a with
    elementType := present? n.text
    elementSummary := elementSummary? n
    nestedBlock := n.text.contains resourceTypeSuffix }

/-- The fields of schema literals that are recognised, with the columns that they set. -/
def attributeFields : List (Text × (Attribute → Node → Attribute)) := [
  ("Required", fun a n => { a with required := n.isTrue }),
  ("Optional", fun a n => { a with optional := n.isTrue }),
  ("Computed", fun a n => { a with computed := n.isTrue }),
  ("ForceNew", fun a n => { a with forceNew := n.isTrue }),
  ("Sensitive", fun a n => { a with sensitive := n.isTrue }),
  ("Deprecated", fun a n => { a with deprecated := stringOrText? n }),
  ("Description", fun a n => { a with description := stringOrText? n }),
  ("Default", fun a n => { a with defaultValue := stringOrText? n }),
  ("ConflictsWith", fun a n => { a with conflictsWith := listText? n }),
  ("ExactlyOneOf", fun a n => { a with exactlyOneOf := listText? n }),
  ("AtLeastOneOf", fun a n => { a with atLeastOneOf := listText? n }),
  ("RequiredWith", fun a n => { a with requiredWith := listText? n }),
  ("MaxItems", fun a n => { a with maxItems := n.intValue?.map Int.ofNat }),
  ("MinItems", fun a n => { a with minItems := n.intValue?.map Int.ofNat }),
  ("Type", fun a n => { a with type := present? n.text }),
  ("ValidateFunc", fun a n => { a with validation := present? n.text }),
  ("ValidateDiagFunc", fun a n => { a with validation := present? n.text }),
  ("DiffSuppressFunc", fun a n => { a with diffSuppress := present? n.text }),
  ("StateFunc", fun a n => { a with stateFunction := present? n.text }),
  ("Set", fun a n => { a with setFunction := present? n.text }),
  ("Elem", setElement)]

/-- An attribute with the column of one field set, if the field is recognised. -/
def setField (a : Attribute) (field : Node × Node) : Attribute :=
  match attributeFields.lookup field.1.text with
  | some set => set a field.2
  | none => a

/-- The columns that a schema literal sets. -/
def columns (name : Text) (braces : Node) : Attribute :=
  braces.keyedElements.foldl setField (.named name)

/-- The attribute that a schema literal describes, whose name must be a text that can be encoded and
is not empty. -/
def Attribute.ofLiteral (name : Text) (braces : Node) : Except Invalid Attribute :=
  (((Checked.nonEmptyText name).within (.field "name")).map fun n => columns n braces).asRecord
    recordName

/-! ### Breaking changes -/

/-- An attribute joined with the attributes that a column relates it to. -/
def related? (column : Attribute → Option Text) (a : Attribute) : Option Text :=
  match column a with
  | some (p :: t) => some (a.name ++ " ↔ " ++ (p :: t))
  | _ => none

/-- A line of a summary, if it has something to say. -/
def summaryLine? (title separator : Text) (items : List Text) : Option Text :=
  if items.isEmpty then none else some (title ++ Text.join separator items)

/-- What changing attributes can break: those that force a new resource, those that conflict and
those that exclude each other, one line each. -/
def breakingChanges (attributes : List Attribute) : Text :=
  Text.join "\n" <| [
    summaryLine? "ForceNew attributes: " ", " ((attributes.filter (·.forceNew)).map (·.name)),
    summaryLine? "Conflicts: " "; " (attributes.filterMap (related? (·.conflictsWith))),
    summaryLine? "Mutually exclusive: " "; "
      (attributes.filterMap (related? (·.exactlyOneOf)))].filterMap id

end ProviderCatalog.Schema
