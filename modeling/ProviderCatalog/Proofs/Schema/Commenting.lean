import ProviderCatalog.Proofs.Schema.AlikeResources

/-!
# Comments between the tokens of a file

A comment on one line may be put between any two tokens of a file of a provider, but not inside a
type or the key of an element, whose texts are read. The file stays a source, and what is read from
the files of the provider stays the same, up to the columns of attributes that hold the text of an
expression. If a slash and a star stand in front of the comment that begin no comment since nothing
ends it, then they begin one with the new comment at its end, and the file may be no source any
more.

## Main definitions

* `Commented`: files that are the same but for one comment.

## Main results

* `Commented.source`: the sources that the two files are.
* `Provider.ofFiles_commented`: the providers of files, one of which gets a comment.
* `Provider.comments_meet`: a comment that ends another one.
-/

namespace ProviderCatalog.Schema

open Go

/-! ### One file -/

/-- A file and the same file with a comment between two tokens: not inside a type or the key of an
element, and not behind a slash and a star that begin no comment since nothing ends it. -/
structure Commented (f f' : RepositoryFile) (before after body : List Char) : Prop where
  path : f.path = f'.path
  name : f.name = f'.name
  content : f.content = .ofChars (before ++ after)
  content' : f'.content = .ofChars (before ++ (blockComment body ++ after))
  isBody : IsBody body
  oneLine : '\n' ∉ body
  place : ∃ root ts₁ t ts₂ l₁ l₂, phraseTree? (before ++ after) = some root ∧
    Boundary before after ts₁ t ts₂ l₁ l₂ ∧ root.severs (spell ts₁).length = false ∧
    opensComment ts₁ = false

variable {f f' : RepositoryFile} {before after body : List Char}

theorem ofFile_of_parse? {cs : List Char} {root : Node} (hcontent : f.content = .ofChars cs)
    (hroot : parse? cs = some root) : Source.ofFile f = .ok (.ofTree f.path root) := by
  rw [Source.ofFile, Source.ofContent, hcontent, Text.toChars?_ofChars]
  dsimp only
  rw [hroot]

/-- A file with a comment more is a source that is alike. -/
theorem Commented.source (h : Commented f f' before after body) :
    ∃ s s', Source.ofFile f = .ok s ∧ Source.ofFile f' = .ok s' ∧ s.Alike s' := by
  obtain ⟨root, ts₁, t, ts₂, l₁, l₂, hroot, hplace, hsevers, hclosed⟩ := h.place
  obtain ⟨tree, tree', htree, htree', halike⟩ :=
    hplace.parse?_blockComment hclosed h.isBody h.oneLine hroot hsevers
  refine ⟨_, _, ofFile_of_parse? h.content htree, ofFile_of_parse? h.content' htree', ?_⟩
  rw [h.path]
  exact Source.alike_ofTree _ halike

/-- A source is like itself. -/
theorem agree_ofFile (f : RepositoryFile) :
    Agree Source.Alike (Source.ofFile f) (Source.ofFile f) := by
  cases hs : Source.ofFile f with
  | error e => exact .error e
  | ok s =>
    obtain ⟨cs, -, hroot, hs⟩ := Source.ofFile_eq_ok hs
    rw [hs]
    exact .ok (Source.alike_ofTree _ (alike_self_of_parse? hroot))

/-! ### Several files -/

/-- Files with one name that are sources which are alike, or no sources for the same reason. -/
def AlikeFiles (f f' : RepositoryFile) : Prop :=
  f.name = f'.name ∧ Agree Source.Alike (Source.ofFile f) (Source.ofFile f')

theorem agree_parseFiles {fs fs' : List RepositoryFile} (h : List.Forall₂ AlikeFiles fs fs') :
    Agree (fun x x' => List.Forall₂ Source.Alike x.1 x'.1 ∧ x.2 = x'.2) (parseFiles fs)
      (parseFiles fs') := by
  induction h with
  | nil => exact .ok ⟨.nil, rfl⟩
  | @cons f f' fs fs' hf _ ih =>
    obtain ⟨hname, hsource⟩ := hf
    rw [parseFiles, parseFiles, ← hname]
    split
    · exact ih
    · rcases hsource.cases with ⟨s, s', hs, hs', halike⟩ | ⟨e, he, he'⟩
      · rw [hs, hs']
        exact ih.seq fun _ _ hrest => .ok ⟨.cons halike hrest.1, hrest.2⟩
      · rw [he, he']
        cases e with
        | syntaxError path =>
          exact ih.seq fun _ _ hrest => .ok ⟨hrest.1, congrArg (parseWarning path :: ·) hrest.2⟩
        | notUnicode => exact .error _

/-- A comment in a file of a provider leaves the file a source, and the provider with what was read
from it: the warnings about the files, the registrations, the services, and the resources with the
warnings about them, whose attributes keep their names, flags and counts and all other columns that
string literals spell. -/
theorem Provider.ofFiles_commented (h : Commented f f' before after body)
    (providerPrefix : Text) (earlier later : List RepositoryFile) :
    (∃ s', Source.ofFile f' = .ok s') ∧
      Agree (fun x x' => SameStructure x.1 x'.1 ∧ x.2 = x'.2)
        (ofFiles providerPrefix (earlier ++ f :: later))
        (ofFiles providerPrefix (earlier ++ f' :: later)) := by
  obtain ⟨s, s', hs, hs', halike⟩ := h.source
  have hsame (fs : List RepositoryFile) : List.Forall₂ AlikeFiles fs fs :=
    List.forall₂_same.mpr fun g _ => ⟨rfl, agree_ofFile g⟩
  have hfile : AlikeFiles f f' := by
    refine ⟨h.name, ?_⟩
    rw [hs, hs']
    exact .ok halike
  have hparsed := agree_parseFiles (List.rel_append (hsame earlier) (.cons hfile (hsame later)))
  refine ⟨⟨s', hs'⟩, hparsed.seq fun x x' hx => .ok ⟨?_, hx.2⟩⟩
  have halikes : Alike ⟨x.1, providerPrefix⟩ ⟨x'.1, providerPrefix⟩ := ⟨rfl, hx.1⟩
  exact halikes.sameStructure

/-! ### Places of sources -/

/-- Whether a source is divided behind some of its tokens, at a place where a comment may stand, and
whether the tokens in front of the place hold a slash and a star that begin no comment. -/
def isPlaceBehind (k : Nat) (opens : Bool) (before after : List Char) : Bool :=
  match tokens? (before ++ after), phraseTree? (before ++ after) with
  | some ts, some root =>
    match ts.drop k with
    | t :: _ =>
      let front := byteOrderMark (before ++ after) ++ spell (ts.take k)
      let l₁ := before.drop front.length
      before == front ++ l₁ && l₁.isPrefixOf t.leading && (takeLeading .outside l₁).rest == [] &&
        root.severs (spell (ts.take k)).length == false && opensComment (ts.take k) == opens
    | [] => false
  | _, _ => false

theorem exists_of_isPlaceBehind {k : Nat} {opens : Bool}
    (h : isPlaceBehind k opens before after = true) :
    ∃ root ts₁ t ts₂ l₁ l₂, phraseTree? (before ++ after) = some root ∧
      Boundary before after ts₁ t ts₂ l₁ l₂ ∧ root.severs (spell ts₁).length = false ∧
      opensComment ts₁ = opens := by
  rw [isPlaceBehind] at h
  split at h
  · rename_i ts root hts hroot
    split at h
    · rename_i t ts₂ hdrop
      simp only [Bool.and_eq_true, beq_iff_eq, List.isPrefixOf_iff_prefix] at h
      obtain ⟨⟨⟨⟨hbefore, l₂, hleading⟩, houtside⟩, hsevers⟩, hopens⟩ := h
      refine ⟨root, ts.take k, t, ts₂, _, l₂, hroot, ⟨?_, hleading.symm, ?_, houtside⟩, hsevers,
        hopens⟩
      · rw [hts, ← hdrop, List.take_append_drop]
      · rwa [List.append_assoc] at hbefore
    · exact nomatch h
  · exact nomatch h

/-- The beginning of a file that registers a resource, up to a place inside a description. -/
def widgetFront : String :=
  "package p\n\nvar all = map[string]schema.Resource\x7b\"p_widget\": widget()\x7d\n" ++
    "func widget() R \x7b return R\x7bSchema: map[string]S\x7b\"size\": " ++
    "\x7bRequired: true, MaxItems: 2, Description: \"the\" +"

/-- The rest of the file. -/
def widgetRest : String := " \"size\"\x7d\x7d\x7d \x7d\n"

/-- The file with some text at the place. -/
def widgetFile (inserted : List Char) : RepositoryFile :=
  ⟨1, "a.go", "a.go", "go", .ofChars (widgetFront.toList ++ (inserted ++ widgetRest.toList)), 1⟩

set_option maxRecDepth 100000 in
private theorem widgetFile_checked :
    isPlaceBehind 51 false widgetFront.toList widgetRest.toList = true ∧
      Provider.outlines? [widgetFile []] =
        some [⟨"p_widget", some ("a.go" : Text), [("size" : Text)]⟩] := by
  decide +kernel

theorem commented_widgetFile :
    Commented (widgetFile []) (widgetFile (blockComment " of the ".toList)) widgetFront.toList
      widgetRest.toList " of the ".toList where
  path := by simp only [widgetFile]
  name := by simp only [widgetFile]
  content := by simp only [widgetFile, List.nil_append]
  content' := by simp only [widgetFile]
  isBody := by decide
  oneLine := by decide
  place := exists_of_isPlaceBehind widgetFile_checked.1

/-- The resource of a file keeps its attribute, whose description is commented. -/
theorem Provider.ofFiles_commented_of_widget :
    ∃ p p' ws x, ofFiles "p" [widgetFile []] = .ok (p, ws) ∧
      ofFiles "p" [widgetFile (blockComment " of the ".toList)] = .ok (p', ws) ∧
      SameStructure p p' ∧ p.extract.1 = .ok [x] ∧
      x.attributes.map (·.name) = [("size" : Text)] := by
  obtain ⟨-, hagree⟩ := Provider.ofFiles_commented commented_widgetFile "p" [] []
  obtain ⟨built, hbuilt, hone⟩ := Option.map_eq_some_iff.mp widgetFile_checked.2
  obtain ⟨x, rfl, hx⟩ := List.map_eq_singleton_iff.mp hone
  obtain ⟨p, ws, _, hp, hextract⟩ := extract_of_resources? hbuilt (List.cons_ne_nil x [])
  rcases hagree.cases with ⟨⟨q, ws₁⟩, ⟨q', ws₂⟩, hq, hq', hsame, hws⟩ | ⟨e, he, -⟩
  · obtain ⟨rfl, rfl⟩ := Prod.mk.inj (Except.ok.inj (hp.symm.trans hq))
    obtain rfl : ws = ws₂ := hws
    refine ⟨p, q', ws, x, hp, hq', hsame, ?_, congrArg Outline.attributes hx⟩
    rw [hextract, List.mergeSort_singleton]
  · exact nomatch he.symm.trans hp

/-! ### Comments that meet -/

/-- The beginning of a file with a slash and a star, up to a place inside parentheses. -/
def quotientFront : List Char := "package p\n\nvar x = a /*(b".toList

set_option maxRecDepth 100000 in
private theorem quotientFront_place :
    isPlaceBehind 10 true quotientFront ")\n".toList = true ∧
      ((phraseTree? (quotientFront ++ ")\n".toList)).all fun root =>
        root.preorder.all (·.kind != .selectorExpression)) = true ∧
      (parse? (quotientFront ++ (blockComment " c ".toList ++ ")\n".toList))).isSome = false := by
  decide +kernel

/-- A comment can end another one that nothing ended before, even outside of types, keys and
selectors, so that a file is no source any more. -/
theorem comments_meet :
    ¬∀ (before after body : List Char) (root : Node) (ts₁ : List Token) (t : Token)
      (ts₂ : List Token) (l₁ l₂ : List Char), phraseTree? (before ++ after) = some root →
        Boundary before after ts₁ t ts₂ l₁ l₂ → root.severs (spell ts₁).length = false →
        (∀ n ∈ root.walk, n.kind ≠ .selectorExpression) → IsBody body → '\n' ∉ body →
          (parse? (before ++ (blockComment body ++ after))).isSome = true := by
  intro h
  obtain ⟨hplace, hkinds, hfails⟩ := quotientFront_place
  obtain ⟨root, ts₁, t, ts₂, l₁, l₂, hroot, hboundary, hsevers, -⟩ := exists_of_isPlaceBehind hplace
  have hselector : ∀ n ∈ root.walk, n.kind ≠ .selectorExpression := by
    rw [hroot] at hkinds
    rw [Node.walk_eq_preorder]
    exact fun n hn => bne_iff_ne.mp (List.all_eq_true.mp hkinds n hn)
  have hsome := h _ _ " c ".toList root ts₁ t ts₂ l₁ l₂ hroot hboundary hsevers hselector
    (by decide) (by decide)
  rw [hfails] at hsome
  exact nomatch hsome

end ProviderCatalog.Schema
