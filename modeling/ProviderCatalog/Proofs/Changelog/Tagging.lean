import ProviderCatalog.Proofs.Changelog.Blocks
import ProviderCatalog.Proofs.Text.Lines

/-!
# The tags of releases

The tag of a release is its version after a `v`. Tags are compared in a normal form, for which
neither the case of a name nor its outer blanks nor a missing `v` matter. The lower case of a text
depends on what stands before it, since a capital sigma is final only after a cased code point; so
it has to be shown that the case of the `v` itself makes no difference.

## Main definitions

* `bareName`: a name without outer blanks and without its leading `v`.
* `Release.Tagged`: releases with the tag of their version.

## Main results

* `normalizeTag_eq`: the normal form of a name that is not blank.
* `read_tagged`: the releases of a changelog have the tags of their versions.
* `Release.Tagged.normalizeTag_eq_iff`: the names that have the normal form of a release's tag.
-/

namespace ProviderCatalog

/-! ### Lower case after other texts -/

namespace Text

variable {before before' t : Text}

theorem meetsCased_cons (h : meetsCased before = meetsCased before') (x : CodePoint) :
    meetsCased (x :: before) = meetsCased (x :: before') := by
  cases x with
  | surrogate n => rfl
  | scalar c => simp only [meetsCased, h]

/-- What stands before a text matters for its lower case only in whether it meets a cased code
point. -/
theorem lowerAfter_congr (h : meetsCased before = meetsCased before') (t : Text) :
    lowerAfter before t = lowerAfter before' t := by
  induction t generalizing before before' with
  | nil => rfl
  | cons x t ih =>
    have hrest := ih (meetsCased_cons h x)
    rw [lowerAfter.eq_def, lowerAfter.eq_def before']
    dsimp only
    split
    · rw [hrest]
    · rw [h, hrest]
    · rw [hrest]

theorem lowerChar_ne_nil (c : Char) : lowerChar c ≠ [] := by
  fun_cases lowerChar c <;> exact List.cons_ne_nil _ _

theorem lowerAfter_eq_nil_iff : lowerAfter before t = [] ↔ t = [] := by
  cases t with
  | nil => simp [lowerAfter]
  | cons x t =>
    rw [lowerAfter.eq_def]
    dsimp only
    split
    · simp
    · simp
    · simp [ofChars, lowerChar_ne_nil]

end Text

namespace Changelog

variable {t name raw : Text} {r : Release}

/-! ### Normal forms -/

/-- A name without outer blanks and without a leading letter `v`. -/
def bareName (name : Text) : Text :=
  match name.trim with
  | [] => []
  | p :: rest => if isVersionLetter p then rest else p :: rest

/-- A leading `V` is put into lower case without a trace. -/
theorem lower_cons_letter {x : CodePoint} (hx : isVersionLetter x = true) (t : Text) :
    Text.lower (x :: t) = Text.lower (.scalar 'v' :: t) := by
  rcases Bool.or_eq_true_iff.mp hx with hx | hx
  · rw [beq_iff_eq.mp hx]
  · rw [beq_iff_eq.mp hx]
    have hcased : Text.meetsCased [.scalar 'V'] = Text.meetsCased [.scalar 'v'] := by decide +kernel
    exact congrArg (.scalar 'v' :: ·) (Text.lowerAfter_congr hcased t)

/-- A name that is not blank is looked up by what is left of it after a `v`, in lower case. -/
theorem normalizeTag_eq (hne : name.trim ≠ []) :
    normalizeTag name = Text.lower (.scalar 'v' :: bareName name) := by
  obtain ⟨x, rest, hname⟩ := List.exists_cons_of_ne_nil hne
  rw [normalizeTag, bareName, hname]
  dsimp only
  split
  · exact lower_cons_letter ‹_› rest
  · rfl

theorem normalizeTag_ne_nil (hne : name.trim ≠ []) : normalizeTag name ≠ [] := by
  rw [normalizeTag_eq hne]
  exact Text.lowerAfter_eq_nil_iff.not.mpr (List.cons_ne_nil _ _)

/-- What is not left out of a version as unreleased is the name without its letter. -/
theorem normalizeVersion_eq (raw : Text) : normalizeVersion raw =
    if (bareName raw).lower = ("unreleased" : Text) then [] else bareName raw := by
  rw [normalizeVersion, bareName]
  cases raw.trim <;> rfl

theorem bareName_suffix (name : Text) : bareName name <:+ name.trim := by
  rw [bareName]
  split
  · exact List.nil_suffix
  · rename_i hname
    rw [hname]
    split
    · exact List.suffix_cons _ _
    · exact List.suffix_rfl

theorem normalizeVersion_suffix (raw : Text) : normalizeVersion raw <:+ raw.trim := by
  rw [normalizeVersion_eq]
  split
  · exact List.nil_suffix
  · exact bareName_suffix raw

/-- A version ends where the trimmed text ends that it is taken from. -/
theorem isBlank_getLast?_normalizeVersion (raw : Text) :
    ∀ x ∈ (normalizeVersion raw).getLast?, x.isBlank = false := by
  intro x hx
  have hne : normalizeVersion raw ≠ [] := List.ne_nil_of_mem (List.mem_of_getLast? hx)
  obtain ⟨before, hbefore⟩ := normalizeVersion_suffix raw
  refine (Text.trim_eq_self_iff.mp (Text.dropEnds_dropEnds _ raw)).2 x ?_
  change x ∈ raw.trim.getLast?
  rwa [← hbefore, List.getLast?_append_of_ne_nil _ hne]

/-! ### The tags of the releases of a changelog -/

/-- A release has a version, and its tag is the version after a `v`, which trimming leaves alone. -/
structure Release.Tagged (r : Release) : Prop where
  version : r.version ≠ []
  tag : r.tag = .scalar 'v' :: r.version
  trimmed : r.tag.trim = r.tag

theorem Release.ofHeading?_tagged {line : Text} (h : Release.ofHeading? line = some r) :
    r.Tagged := by
  obtain ⟨-, hversion, htag, hraw, -⟩ := ofHeading?_eq_some h
  refine ⟨hversion, htag, Text.trim_eq_self_iff.mpr ⟨?_, fun x hx => ?_⟩⟩
  · rw [htag]
    exact fun x hx => Option.some.inj hx ▸ rfl
  · rw [htag, List.getLast?_cons_of_ne_nil hversion, hraw] at hx
    exact isBlank_getLast?_normalizeVersion _ x hx

/-- The releases of a changelog have the tags of their versions, whatever the limit is. -/
theorem read_tagged {limit : Int} : ∀ r ∈ read limit t, r.Tagged := by
  refine forall_mem_read (fun line _ r hr => Release.ofHeading?_tagged hr) fun line _ r hr => ?_
  rw [addLine_eq]
  exact ⟨hr.version, hr.tag, hr.trimmed⟩

theorem Release.Tagged.trim_ne_nil (h : r.Tagged) : r.tag.trim ≠ [] := by
  rw [h.trimmed, h.tag]
  exact List.cons_ne_nil _ _

/-- A name has the normal form of a release's tag if what is left of it without outer blanks and a
leading `v` is the version up to case. -/
theorem Release.Tagged.normalizeTag_eq_iff (h : r.Tagged) (name : Text) :
    normalizeTag name = normalizeTag r.tag ↔
      Text.lower (.scalar 'v' :: bareName name) = Text.lower (.scalar 'v' :: r.version) := by
  have hbare : bareName r.tag = r.version := by
    rw [bareName, h.trimmed, h.tag]
    rfl
  have htag := normalizeTag_eq h.trim_ne_nil
  rw [hbare] at htag
  rcases eq_or_ne name.trim [] with hblank | hne
  · -- a blank name has an empty normal form, and the tag of a version is longer than its `v`
    have hname : normalizeTag name = [] := by rw [normalizeTag, hblank]
    have hletter : Text.lower (.scalar 'v' :: bareName name) = [.scalar 'v'] := by
      rw [bareName, hblank]
      rfl
    have hlonger : Text.lower (.scalar 'v' :: r.version) ≠ [.scalar 'v'] := fun hshort =>
      h.version (Text.lowerAfter_eq_nil_iff.mp (List.cons.inj hshort).2)
    rw [hname, hletter]
    exact iff_of_false (normalizeTag_ne_nil h.trim_ne_nil).symm hlonger.symm
  · rw [normalizeTag_eq hne, htag]

end Changelog

end ProviderCatalog
