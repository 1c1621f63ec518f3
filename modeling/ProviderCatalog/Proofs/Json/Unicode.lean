import ProviderCatalog.Json.Document
import ProviderCatalog.Proofs.Computation

/-!
# Texts of documents that are read strictly

The strict reading of a document refuses byte strings that are no encoding, and escapes that spell
half a surrogate pair. So every text of the datum that it gives can be encoded. The automaton and
the assembly of its tokens each keep an invariant of the texts that they hold.

## Main definitions

* `Datum.Unicode`: every text of a datum can be encoded.
* `Scan.Unicode`, `Assembly.Unicode`: the invariants.

## Main results

* `scan_unicode`, `ofTokens_unicode`: the tokens of a document, and what they are put together to.
* `ofBytes?_unicode`: every text of a document that is read strictly can be encoded.
-/

namespace ProviderCatalog

/-- Every text of a datum can be encoded. -/
inductive Datum.Unicode : Datum → Prop
  | null : Unicode null
  | bool (b : Bool) : Unicode (bool b)
  | int (n : Int) : Unicode (int n)
  | real (x : Binary64) : Unicode (real x)
  | text {t : Text} (h : t.isUnicode = true) : Unicode (text t)
  | bytes (bs : Bytes) : Unicode (bytes bs)
  | moment : Unicode moment
  | list {items : List Datum} (h : ∀ d ∈ items, Unicode d) : Unicode (list items)
  | mapping {entries : List (Datum × Datum)} (hkeys : ∀ e ∈ entries, Unicode e.1)
      (hvalues : ∀ e ∈ entries, Unicode e.2) : Unicode (mapping entries)

private theorem unicode_cons (x : CodePoint) (t : Text) :
    Text.isUnicode (x :: t) = true ↔ x.isScalar = true ∧ t.isUnicode = true := by
  rw [Text.isUnicode, List.all_cons, Bool.and_eq_true]
  rfl

theorem Text.ofUtf8?_unicode {bs : Bytes} {t : Text} (h : Text.ofUtf8? bs = some t) :
    t.isUnicode = true := by
  rw [Text.ofUtf8?] at h
  generalize Utf8.pieces bs = pieces at h
  induction pieces generalizing t with
  | nil =>
    cases h
    rfl
  | cons piece pieces ih =>
    cases piece with
    | faulty bytes => exact nomatch h
    | char c =>
      rw [List.mapM_cons, Option.bind_eq_bind, Option.bind_some, Option.bind_eq_bind,
        Option.bind_eq_some_iff] at h
      obtain ⟨rest, hrest, heq⟩ := h
      cases heq
      exact (unicode_cons _ _).mpr ⟨rfl, ih hrest⟩

namespace Json

variable {p q : Partial} {s : Scan} {t : Text} {ts : List Token} {d : Datum}

/-! ### The automaton -/

/-- Every text of a token can be encoded. -/
def Token.Unicode : Token → Prop
  | .scalar d => d.Unicode
  | _ => True

/-- The string that is being read can be encoded so far. -/
def Scan.Unicode : Scan → Prop
  | .outside | .word _ => True
  | .string p | .escape p | .hex p _ _ => p.reversed.isUnicode = true

/-- The strict reading settles no first half. -/
private theorem settle?_strict (h : p.settle? strict = some t) : t = p.reversed := by
  rw [Partial.settle?] at h
  split at h
  · exact (Option.some.inj h).symm
  · exact nomatch h

private theorem push?_unicode {x : CodePoint} (h : p.push? strict x = some q)
    (hx : x.isScalar = true) (hp : p.reversed.isUnicode = true) : q.reversed.isUnicode = true := by
  obtain ⟨r, hr, rfl⟩ := Option.map_eq_some_iff.mp h
  exact (unicode_cons x r).mpr ⟨hx, settle?_strict hr ▸ hp⟩

private theorem pushNumber?_unicode {n : Nat} (h : p.pushNumber? strict n = some q)
    (hp : p.reversed.isUnicode = true) : q.reversed.isUnicode = true := by
  rw [Partial.pushNumber?] at h
  split at h
  · obtain ⟨r, hr, rfl⟩ := Option.map_eq_some_iff.mp h
    exact settle?_strict hr ▸ hp
  · split at h
    · split at h
      · cases h
        exact (unicode_cons _ _).mpr ⟨rfl, hp⟩
      · exact nomatch h
    · exact push?_unicode h rfl hp

private theorem readUnsigned?_unicode {negative : Bool} {cs : List Char}
    (h : readUnsigned? negative cs = some d) : d.Unicode := by
  simp only [readUnsigned?] at h
  generalize takeDigits cs = whole at h
  obtain ⟨-, h⟩ := Option.ite_none_left_eq_some.mp h
  split at h
  · obtain ⟨-, h⟩ := Option.ite_none_left_eq_some.mp h
    exact Option.some.inj h ▸ .int _
  · split at h
    · cases h
    · exact Option.some.inj h ▸ .real _
    · obtain ⟨e, -, rfl⟩ := Option.map_eq_some_iff.mp h
      exact .real _
  · obtain ⟨e, -, rfl⟩ := Option.map_eq_some_iff.mp h
    exact .real _

/-- Words outside quotes spell no texts. -/
private theorem readWord?_unicode {cs : List Char} (h : readWord? cs = some d) : d.Unicode := by
  unfold readWord? at h
  split at h
  · exact Option.some.inj h ▸ .null
  split at h
  · exact Option.some.inj h ▸ .bool _
  split at h
  · exact Option.some.inj h ▸ .bool _
  split at h
  · exact Option.some.inj h ▸ .real _
  split at h
  · exact Option.some.inj h ▸ .real _
  split at h
  · exact Option.some.inj h ▸ .real _
  split at h
  · exact readUnsigned?_unicode h
  · exact readUnsigned?_unicode h

private theorem wordToken_unicode (cs : List Char) : (wordToken cs).Unicode := by
  rw [wordToken]
  split
  · rename_i h
    exact readWord?_unicode h
  · trivial
  · trivial

private theorem state_unicode (h : s.Unicode) : ∀ s' ∈ some s, s'.Unicode :=
  fun _ hs => Option.some.inj hs ▸ h

private theorem outsideStep_unicode (c : Char) :
    (∀ x ∈ (outsideStep c).1, x.Unicode) ∧ ∀ s ∈ (outsideStep c).2, s.Unicode := by
  have hsign {x : Token} (hx : x.Unicode) :
      (∀ y ∈ [x], y.Unicode) ∧ ∀ s ∈ some Scan.outside, s.Unicode :=
    ⟨List.forall_mem_singleton.mpr hx, state_unicode trivial⟩
  unfold outsideStep
  split
  · exact ⟨nofun, state_unicode trivial⟩
  · exact ⟨nofun, state_unicode trivial⟩
  · exact ⟨nofun, state_unicode trivial⟩
  · exact ⟨nofun, state_unicode trivial⟩
  · exact hsign trivial
  · exact hsign trivial
  · exact hsign trivial
  · exact hsign trivial
  · exact hsign trivial
  · exact hsign trivial
  · exact ⟨nofun, state_unicode rfl⟩
  · refine ⟨nofun, fun s hs => ?_⟩
    split at hs
    · cases hs
      trivial
    · exact nomatch hs

/-- One step of the automaton keeps the string that is being read encodable, and so are the texts
of the tokens that end there. -/
private theorem step_unicode {x : CodePoint} (hs : s.Unicode) (hx : x.isScalar = true) :
    (∀ t ∈ (step strict s x).1, t.Unicode) ∧ ∀ s' ∈ (step strict s x).2, s'.Unicode := by
  cases x with
  | surrogate n => exact nomatch hx
  | scalar c =>
    cases s with
    | outside => exact outsideStep_unicode c
    | word w =>
      simp only [step]
      split
      · exact ⟨nofun, state_unicode trivial⟩
      · obtain ⟨hts, hs'⟩ := outsideStep_unicode c
        exact ⟨List.forall_mem_cons.mpr ⟨wordToken_unicode _, hts⟩, hs'⟩
    | string p =>
      simp only [step]
      split
      · split
        · rename_i r hr
          refine ⟨List.forall_mem_singleton.mpr (Datum.Unicode.text ?_),
            state_unicode trivial⟩
          rw [settle?_strict hr, Text.isUnicode, List.all_reverse]
          exact hs
        · exact ⟨nofun, nofun⟩
      · split
        · exact ⟨nofun, state_unicode hs⟩
        · split
          · exact ⟨nofun, nofun⟩
          · refine ⟨nofun, fun s' hs' => ?_⟩
            obtain ⟨q, hq, rfl⟩ := Option.map_eq_some_iff.mp hs'
            exact push?_unicode hq rfl hs
    | escape p =>
      simp only [step]
      split
      · exact ⟨nofun, state_unicode hs⟩
      · refine ⟨nofun, fun s' hs' => ?_⟩
        simp only [Option.mem_def, Option.bind_eq_bind, Option.bind_eq_some_iff] at hs'
        obtain ⟨y, -, q, hq, hs'⟩ := hs'
        cases hs'
        exact push?_unicode hq rfl hs
      · exact ⟨nofun, nofun⟩
    | hex p digits value =>
      refine ⟨nofun, fun s' hs' => ?_⟩
      simp only [step, Option.mem_def, Option.bind_eq_bind, Option.bind_eq_some_iff] at hs'
      obtain ⟨c', -, v, -, hs'⟩ := hs'
      split at hs'
      · obtain ⟨q, hq, hs'⟩ := Option.bind_eq_some_iff.mp hs'
        cases hs'
        exact pushNumber?_unicode hq hs
      · cases hs'
        exact hs

private theorem scan_cons (found : List Token) (s : Scan) (x : CodePoint) (t : Text) :
    scan strict found s (x :: t) =
      match step strict s x with
      | (ts, some s') => scan strict (ts.reverse ++ found) s' t
      | (ts, none) => (.invalid :: (ts.reverse ++ found)).reverse := by
  rcases hstep : step strict s x with ⟨ts, _ | s'⟩ <;> cases s <;> rw [scan, hstep]

/-- The texts of all tokens of a document can be encoded: the automaton goes over the document code
point by code point, and keeps the string that it is reading encodable. -/
theorem scan_unicode {found : List Token} (ht : t.isUnicode = true) (hs : s.Unicode)
    (hfound : ∀ x ∈ found, x.Unicode) : ∀ x ∈ scan strict found s t, x.Unicode := by
  -- the token that is found last is the first of the list
  have hlast {x : Token} (hx : x.Unicode) {found : List Token} (hfound : ∀ y ∈ found, y.Unicode) :
      ∀ y ∈ (x :: found).reverse, y.Unicode := fun y hy =>
    List.forall_mem_cons.mpr ⟨hx, hfound⟩ y (List.mem_reverse.mp hy)
  induction t generalizing s found with
  | nil =>
    unfold scan
    split
    · exact fun x hx => hfound x (List.mem_reverse.mp hx)
    · exact hlast (wordToken_unicode _) hfound
    · exact hlast (x := .invalid) trivial hfound
    · rename_i hcons
      cases hcons
  | cons x t ih =>
    obtain ⟨hx, ht⟩ := (unicode_cons x t).mp ht
    obtain ⟨hts, hs'⟩ := step_unicode hs hx
    rw [scan_cons]
    revert hts hs'
    rcases step strict s x with ⟨ts, _ | s'⟩ <;> intro hts hs'
    · refine hlast (x := .invalid) trivial fun y hy => ?_
      rcases List.mem_append.mp hy with hy | hy
      · exact hts y (List.mem_reverse.mp hy)
      · exact hfound y hy
    · refine ih ht (hs' s' rfl) fun y hy => ?_
      rcases List.mem_append.mp hy with hy | hy
      · exact hts y (List.mem_reverse.mp hy)
      · exact hfound y hy

/-! ### The assembly -/

/-- Every text that an open frame holds can be encoded. -/
def Frame.Unicode : Frame → Prop
  | .list items => ∀ d ∈ items, d.Unicode
  | .mapping entries key =>
    (∀ e ∈ entries, e.1.Unicode) ∧ (∀ e ∈ entries, e.2.Unicode) ∧ key.isUnicode = true

/-- Every text that is held with the expectation can be encoded. -/
def Expected.Unicode : Expected → Prop
  | .colon k => Text.isUnicode k = true
  | .nothing d => d.Unicode
  | _ => True

/-- Every text that an assembly holds can be encoded. -/
structure Assembly.Unicode (a : Assembly) : Prop where
  stack : ∀ f ∈ a.stack, f.Unicode
  expected : a.expected.Unicode

private theorem setEntry_unicode {key value : Datum} {entries : List (Datum × Datum)}
    (hkey : key.Unicode) (hvalue : value.Unicode) (hkeys : ∀ e ∈ entries, e.1.Unicode)
    (hvalues : ∀ e ∈ entries, e.2.Unicode) :
    ∀ e ∈ Datum.setEntry key value entries, e.1.Unicode ∧ e.2.Unicode := by
  induction entries with
  | nil =>
    intro e he
    cases List.mem_singleton.mp he
    exact ⟨hkey, hvalue⟩
  | cons x entries ih =>
    obtain ⟨k, v⟩ := x
    obtain ⟨hx, hkeys⟩ := List.forall_mem_cons.mp hkeys
    obtain ⟨hx', hvalues⟩ := List.forall_mem_cons.mp hvalues
    rw [Datum.setEntry]
    split
    · refine List.forall_mem_cons.mpr ⟨⟨hx, hvalue⟩, fun e he => ⟨hkeys e he, hvalues e he⟩⟩
    · exact List.forall_mem_cons.mpr ⟨⟨hx, hx'⟩, ih hkeys hvalues⟩

private theorem give_unicode {stack : List Frame} (hstack : ∀ f ∈ stack, f.Unicode)
    (hd : d.Unicode) : (Assembly.give stack d).Unicode := by
  cases stack with
  | nil => exact ⟨nofun, hd⟩
  | cons f rest =>
    obtain ⟨hf, hrest⟩ := List.forall_mem_cons.mp hstack
    cases f with
    | list items =>
      exact ⟨List.forall_mem_cons.mpr ⟨List.forall_mem_cons.mpr ⟨hd, hf⟩, hrest⟩, trivial⟩
    | mapping entries key =>
      obtain ⟨hkeys, hvalues, hkey⟩ := hf
      have hset := setEntry_unicode (.text hkey) hd hkeys hvalues
      exact ⟨List.forall_mem_cons.mpr
        ⟨⟨fun e he => (hset e he).1, fun e he => (hset e he).2, hkey⟩, hrest⟩, trivial⟩

private theorem enter_unicode {rules : Strictness} {stack : List Frame} {isMapping : Bool}
    {a : Assembly} (h : Assembly.enter rules stack isMapping = .ok a)
    (hstack : ∀ f ∈ stack, f.Unicode) : a.Unicode := by
  rw [Assembly.enter] at h
  split at h
  · cases isMapping with
    | true =>
      cases h
      exact ⟨List.forall_mem_cons.mpr ⟨⟨nofun, nofun, rfl⟩, hstack⟩, trivial⟩
    | false =>
      cases h
      exact ⟨List.forall_mem_cons.mpr ⟨nofun, hstack⟩, trivial⟩
  · exact nomatch h

/-- A token more keeps all texts encodable. -/
private theorem assemble_unicode {rules : Strictness} {a a' : Assembly} {x : Token}
    (h : a.step rules x = .ok a') (ha : a.Unicode) (hx : x.Unicode) : a'.Unicode := by
  obtain ⟨stack, expected⟩ := a
  obtain ⟨hstack, hexpected⟩ := ha
  have htail : ∀ f ∈ stack.tail, f.Unicode := fun f hf => hstack f (List.mem_of_mem_tail hf)
  unfold Assembly.step at h
  dsimp only at h hstack hexpected
  split at h
  · exact Except.ok.inj h ▸ give_unicode hstack hx
  · exact Except.ok.inj h ▸ give_unicode hstack hx
  · exact nomatch h
  · exact nomatch h
  · exact enter_unicode h hstack
  · exact enter_unicode h hstack
  · exact enter_unicode h hstack
  · exact enter_unicode h hstack
  · exact Except.ok.inj h ▸ give_unicode htail (.list nofun)
  · exact Except.ok.inj h ▸ give_unicode htail (.mapping nofun nofun)
  · cases h
    cases hx with
    | text hx => exact ⟨hstack, hx⟩
  · cases h
    cases hx with
    | text hx => exact ⟨hstack, hx⟩
  · split at h
    · cases h
      obtain ⟨⟨hkeys, hvalues, -⟩, hrest⟩ := List.forall_mem_cons.mp hstack
      exact ⟨List.forall_mem_cons.mpr ⟨⟨hkeys, hvalues, hexpected⟩, hrest⟩, trivial⟩
    · exact nomatch h
  · split at h
    · cases h
      exact ⟨hstack, trivial⟩
    · cases h
      exact ⟨hstack, trivial⟩
    · exact nomatch h
  · split at h
    · obtain ⟨hitems, hrest⟩ := List.forall_mem_cons.mp hstack
      refine Except.ok.inj h ▸ give_unicode hrest (.list fun d hd => ?_)
      exact hitems d (List.mem_reverse.mp hd)
    · exact nomatch h
  · split at h
    · obtain ⟨⟨hkeys, hvalues, -⟩, hrest⟩ := List.forall_mem_cons.mp hstack
      exact Except.ok.inj h ▸ give_unicode hrest (.mapping hkeys hvalues)
    · exact nomatch h
  · exact nomatch h

private theorem assembleAll_unicode {rules : Strictness} {a a' : Assembly}
    (h : ts.foldlM (Assembly.step rules) a = .ok a') (ha : a.Unicode)
    (hts : ∀ x ∈ ts, x.Unicode) : a'.Unicode := by
  induction ts generalizing a with
  | nil => exact Except.ok.inj h ▸ ha
  | cons x ts ih =>
    obtain ⟨hx, hts⟩ := List.forall_mem_cons.mp hts
    rw [List.foldlM_cons] at h
    obtain ⟨b, hb, h⟩ := except_bind_eq_ok.mp h
    exact ih h (assemble_unicode hb ha hx) hts

/-- What tokens are put together to has no other texts than theirs. -/
theorem ofTokens_unicode {rules : Strictness} (h : ofTokens rules ts = .ok d)
    (hts : ∀ x ∈ ts, x.Unicode) : d.Unicode := by
  obtain ⟨a, ha, h⟩ := except_bind_eq_ok.mp h
  have hunicode := (assembleAll_unicode ha ⟨nofun, trivial⟩ hts).expected
  split at h
  · rename_i hd
    rw [hd] at hunicode
    exact Except.ok.inj h ▸ hunicode
  · exact nomatch h

/-- Every text of a document that is read strictly can be encoded. -/
theorem ofBytes?_unicode {bs : Bytes} (h : ofBytes? bs = some d) : d.Unicode := by
  obtain ⟨t, ht, h⟩ := Option.bind_eq_some_iff.mp h
  have hread : read strict t = .ok d := by
    rw [read?] at h
    cases hr : read strict t with
    | error f =>
      rw [hr] at h
      exact nomatch h
    | ok d' =>
      rw [hr] at h
      cases h
      rfl
  exact ofTokens_unicode hread (scan_unicode (Text.ofUtf8?_unicode ht) trivial nofun)

end Json

end ProviderCatalog
