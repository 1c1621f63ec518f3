import ProviderCatalog.Proofs.Computation
import ProviderCatalog.Proofs.Json.Unicode
import ProviderCatalog.Proofs.Validation.Fields
import ProviderCatalog.Remote.Client

/-!
# Texts of summaries

A summary is read from a document, and documents are read strictly, whether they come from the
remote side or from the cache. So the texts of a summary can be encoded.

## Main definitions

* `Summary.Unicode`: every text of a summary can be encoded.

## Main results

* `Checked.required_unicode`, `Checked.withDefault_unicode`, `Checked.optional_unicode`: the texts
  of the three kinds of fields.
* `Client.summary_unicode`: every summary that a client gives has such texts.
-/

namespace ProviderCatalog

variable {d : Datum} {name : String} {t : Text}

theorem Datum.Unicode.get? {key : Text} {v : Datum} (hd : d.Unicode) (h : d.get? key = some v) :
    v.Unicode := by
  cases hd with
  | @mapping entries hkeys hvalues =>
    replace h : lookup key entries = some v := h
    clear hkeys
    fun_induction lookup key entries with
    | case1 => exact nomatch h
    | case2 => exact Option.some.inj h ▸ hvalues _ List.mem_cons_self
    | case3 _ _ _ _ ih => exact ih (fun e he => hvalues e (List.mem_cons_of_mem _ he)) h
    | case4 _ _ _ ih => exact ih (fun e he => hvalues e (List.mem_cons_of_mem _ he)) h
  | _ => exact nomatch h

/-! ### Fields -/

namespace Checked

theorem text_unicode (h : text d = valid t) (hd : d.Unicode) : t.isUnicode = true := by
  cases hd with
  | text ht =>
    cases h
    exact ht
  | bytes bs =>
    simp only [text] at h
    split at h
    · rename_i hbs
      cases h
      exact Text.ofUtf8?_unicode hbs
    · exact nomatch h
  | _ => exact nomatch h

theorem required_unicode (h : required d name text = valid t) (hd : d.Unicode) :
    t.isUnicode = true := by
  obtain ⟨v, hv, hread⟩ := required_eq_valid h
  exact text_unicode hread (hd.get? hv)

theorem withDefault_unicode {default : Text} (h : withDefault d name default text = valid t)
    (hdefault : default.isUnicode = true) (hd : d.Unicode) : t.isUnicode = true := by
  rcases withDefault_cases h with ⟨-, rfl⟩ | ⟨v, hv, hread⟩
  · exact hdefault
  · exact text_unicode hread (hd.get? hv)

theorem optional_unicode {t? : Option Text} (h : optional d name text = valid t?)
    (hd : d.Unicode) : ∀ t ∈ t?, t.isUnicode = true := by
  intro t ht
  rw [optional_text_eq_valid h] at ht
  obtain ⟨v, hv, hvalue⟩ := Option.bind_eq_some_iff.mp ht
  exact text_unicode (value?_eq_some.mp hvalue) (hd.get? hv)

end Checked

namespace Remote

/-- Every text of a summary can be encoded. -/
structure Summary.Unicode (s : Summary) : Prop where
  name : s.name.isUnicode = true
  fullName : s.fullName.isUnicode = true
  description : ∀ t ∈ s.description, t.isUnicode = true
  updatedAt : s.updatedAt.isUnicode = true
  pageUrl : s.pageUrl.isUnicode = true

theorem Summary.check_unicode {s : Summary} (h : Summary.check d = .valid s) (hd : d.Unicode) :
    s.Unicode := by
  obtain ⟨_, _, hsize, -, rfl⟩ := Checked.seq_eq_valid (Checked.record_eq_valid h)
  obtain ⟨_, _, harchived, -, rfl⟩ := Checked.seq_eq_valid hsize
  obtain ⟨_, _, hprivate, -, rfl⟩ := Checked.seq_eq_valid harchived
  obtain ⟨_, _, hrest, hpageUrl, rfl⟩ := Checked.seq_eq_valid hprivate
  obtain ⟨_, _, hrest', hupdatedAt, rfl⟩ := Checked.seq_eq_valid hrest
  obtain ⟨_, _, hrest'', hdescription, rfl⟩ := Checked.seq_eq_valid hrest'
  obtain ⟨_, _, hnames, hfullName, rfl⟩ := Checked.seq_eq_valid hrest''
  obtain ⟨_, hname, rfl⟩ := Checked.map_eq_valid hnames
  exact ⟨Checked.required_unicode hname hd, Checked.required_unicode hfullName hd,
    Checked.optional_unicode hdescription hd, Checked.withDefault_unicode hupdatedAt rfl hd,
    Checked.withDefault_unicode hpageUrl rfl hd⟩

/-- Every text of a summary that a client gives can be encoded, whatever the remote side answered
and the cache holds. -/
theorem Client.summary_unicode (c : Client) (remote : Remote) {fullName : Text} {x x' : Session}
    {s : Summary} (h : (c.summary remote fullName).run.run x = (.ok s, x')) : s.Unicode := by
  rw [summary, run_bind] at h
  rcases hget : (c.get remote (c.repositoryUrl fullName)).run.run x with ⟨e | body, y⟩
  · rw [hget] at h
    exact nomatch h
  · rw [hget] at h
    dsimp only [readRecord] at h
    split at h
    · exact nomatch h
    · rename_i d hd
      split at h
      · rename_i s' hs'
        cases h
        refine Summary.check_unicode (d := d) ?_ (Json.ofBytes?_unicode hd)
        generalize Summary.check d = checked at hs'
        cases checked with
        | valid a => exact congrArg _ (Except.ok.inj hs')
        | invalid es => exact nomatch hs'
      · exact nomatch h

end Remote

end ProviderCatalog
