import ProviderCatalog.Repository.File
import ProviderCatalog.Schema.Attribute
import ProviderCatalog.Schema.Registration

/-!
# Records under names

A name that is not empty can be the name of a record if it can be encoded, and of no record
otherwise. So files, registrations and attributes can be made if their names can be encoded.

## Main results

* `Checked.nonEmptyText_eq`: which texts are names.
* `RepositoryFile.make_eq`, `Registration.make_isOk`, `Attribute.ofLiteral_isOk`: records that can
  be made.
* `Registration.eq_of_make`, `Attribute.eq_columns_of_ofLiteral`: the records that are made.
-/

namespace ProviderCatalog

variable {n : Text}

theorem Checked.nonEmptyText_eq (hne : n ≠ []) :
    nonEmptyText n = if n.isUnicode then valid n else fail .textNotUnicode := by
  cases hn : n.isUnicode <;> simp [nonEmptyText, text, andThen, hn, hne]

/-- A record that is made of a name holds the name. -/
theorem Checked.eq_of_asRecord {α : Type} {step : Step} {record : Text → α} {recordName : String}
    {x : α} (h : (((nonEmptyText n).within step).map record).asRecord recordName = .ok x) :
    x = record n := by
  by_cases hne : n = []
  · subst hne
    exact nomatch h
  · rw [nonEmptyText_eq hne] at h
    cases hn : n.isUnicode with
    | false =>
      rw [hn] at h
      exact nomatch h
    | true =>
      rw [hn] at h
      exact (Except.ok.inj h).symm

/-- A file can be made if its path and its name can be encoded and are not empty. -/
theorem RepositoryFile.make_eq {path name : Text} (hpath : path.isUnicode = true)
    (hpath' : path ≠ []) (hname : name.isUnicode = true) (hname' : name ≠ []) (id : Int)
    (type content : Text) (size : Nat) :
    make id path name type content size = .ok ⟨id, path, name, type, content, size⟩ := by
  rw [make, Checked.nonEmptyText_eq hpath', Checked.nonEmptyText_eq hname', hpath, hname]
  rfl

namespace Schema

/-- A registration can be made under a name that can be encoded. -/
theorem Registration.make_isOk (hne : n ≠ []) (builder : Option Text) (kind : ResourceKind) :
    (make n builder kind).isOk = n.isUnicode := by
  rw [make, Checked.nonEmptyText_eq hne]
  cases n.isUnicode <;> rfl

/-- An attribute can be made under a name that can be encoded. -/
theorem Attribute.ofLiteral_isOk (hne : n ≠ []) (braces : Go.Node) :
    (ofLiteral n braces).isOk = n.isUnicode := by
  rw [ofLiteral, Checked.nonEmptyText_eq hne]
  cases n.isUnicode <;> rfl

/-- A registration that can be made consists of its parts. -/
theorem Registration.eq_of_make {builder : Option Text} {kind : ResourceKind} {r : Registration}
    (h : make n builder kind = .ok r) : r = ⟨n, builder, kind⟩ :=
  Checked.eq_of_asRecord h

/-- An attribute that can be made has the columns that its schema literal sets. -/
theorem Attribute.eq_columns_of_ofLiteral {braces : Go.Node} {a : Attribute}
    (h : ofLiteral n braces = .ok a) : a = columns n braces :=
  Checked.eq_of_asRecord h

end Schema

end ProviderCatalog
