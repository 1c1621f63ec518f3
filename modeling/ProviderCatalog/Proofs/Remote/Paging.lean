import ProviderCatalog.Proofs.Remote.Sharing
import Mathlib.Data.List.Basic

/-!
# Tags page by page

The tags of a repository are asked for page by page. Another page follows just if the page before
lists as many tags as a page holds and the limit is not reached. So a remote side that serves a list
of tags in consecutive pages is asked for as many pages as it takes to see the end of the list, and
the tags come back in order, none lost and none repeated: a list that ends with a full page is
followed by an empty page. If a page fails then so does the call, and nothing is asked for after it.

## Main definitions

* `ListsTags`, `Exchange.Lists`: a body, and an exchange, that lists tags.
* `Paging`: the session before and after the exchanges for some pages, and what comes of them.
* `Client.ServesTags`: a remote side serves tags in consecutive pages.

## Main results

* `Client.tagsFrom_paging`: what a listing exchanges.
* `Paging.follows_iff`: when another page is asked for.
* `Paging.served`: the tags of a remote side that serves them.
* `Client.tags_paged`: tags are neither lost nor repeated.
-/

namespace ProviderCatalog.Remote

/-! ### Pages -/

/-- A body lists tags: it is a document that is a list, and its items are read as the tags. -/
def ListsTags (body : Bytes) (ts : List Tag) : Prop :=
  ∃ items, Json.ofAnyBytes body = .ok (.list items) ∧ items.map Tag.check = ts.map .valid

/-- An exchange gives a body that lists tags. -/
def Exchange.Lists (e : Exchange) (ts : List Tag) : Prop :=
  ∃ body, e.result = .ok body ∧ ListsTags body ts

/-- An exchange gives no list of tags: because the request is not sent or not answered, or because
the answer is something else. -/
def Exchange.Fails (e : Exchange) : Prop := ∀ ts, ¬e.Lists ts

variable {c : Client} {remote : Remote} {fullName : Text} {s t u : Session} {e : Exchange}
  {es : List Exchange} {r : Except Fault (List Tag)} {page pages : Nat} {body : Bytes}
  {ts ts' : List Tag}

theorem ListsTags.unique (h : ListsTags body ts) (h' : ListsTags body ts') : ts = ts' := by
  obtain ⟨items, hitems, hts⟩ := h
  obtain ⟨items', hitems', hts'⟩ := h'
  cases hitems.symm.trans hitems'
  have hvalid : Function.Injective (Checked.valid : Tag → Checked Tag) :=
    fun _ _ => Checked.valid.inj
  exact List.map_injective_iff.mpr hvalid (hts.symm.trans hts')

theorem Exchange.Lists.unique (h : e.Lists ts) (h' : e.Lists ts') : ts = ts' := by
  obtain ⟨body, hbody, hlists⟩ := h
  obtain ⟨body', hbody', hlists'⟩ := h'
  cases hbody.symm.trans hbody'
  exact hlists.unique hlists'

private theorem mapM_asRecord_eq_ok_iff {items : List Datum} :
    (items.mapM fun d => (Tag.check d).asRecord Tag.recordName) = .ok ts ↔
      items.map Tag.check = ts.map .valid := by
  induction items generalizing ts with
  | nil =>
    cases ts with
    | nil => exact ⟨fun _ => rfl, fun _ => rfl⟩
    | cons x ts => exact ⟨nofun, nofun⟩
  | cons d items ih =>
    rw [List.mapM_cons, except_bind_eq_ok, List.map_cons]
    cases hd : Tag.check d with
    | invalid issues =>
      refine ⟨fun ⟨_, h, _⟩ => (nomatch h), fun h => ?_⟩
      cases ts <;> exact nomatch h
    | valid x =>
      constructor
      · rintro ⟨_, ⟨⟩, h⟩
        obtain ⟨rest, hrest, h⟩ := except_bind_eq_ok.mp h
        cases h
        rw [ih.mp hrest]
        rfl
      · intro h
        cases ts with
        | nil => exact nomatch h
        | cons y ts =>
          obtain ⟨hy, hrest⟩ := List.cons.inj h
          cases hy
          exact ⟨x, rfl, except_bind_eq_ok.mpr ⟨ts, ih.mpr hrest, rfl⟩⟩

namespace Client

/-- The tags of a body are read if it lists some, whatever the session. -/
private theorem exists_run_readTags (body : Bytes) :
    ∃ r, (∀ s, (readTags body).run.run s = (r, s)) ∧ ∀ ts, r = .ok ts ↔ ListsTags body ts := by
  have hother {d : Except Json.DocumentFault Datum} (h : Json.ofAnyBytes body = d) {f : Fault}
      (hd : ∀ items, d ≠ .ok (.list items)) (ts : List Tag) :
      (.error f : Except Fault (List Tag)) = .ok ts ↔ ListsTags body ts :=
    ⟨nofun, fun ⟨items, hitems, _⟩ => absurd (h.symm.trans hitems) (hd items)⟩
  rw [readTags.eq_def]
  split
  · rename_i h
    exact ⟨_, fun _ => rfl, hother h (by simp)⟩
  · rename_i h
    exact ⟨_, fun _ => rfl, hother h (by simp)⟩
  · rename_i items hitems
    split
    · rename_i ts hts
      refine ⟨.ok ts, fun _ => rfl, fun ts' => ⟨?_, fun h => ?_⟩⟩
      · rintro ⟨⟩
        exact ⟨items, hitems, mapM_asRecord_eq_ok_iff.mp hts⟩
      · exact congrArg _ (ListsTags.unique ⟨items, hitems, mapM_asRecord_eq_ok_iff.mp hts⟩ h)
    · rename_i f hf
      refine ⟨_, fun _ => rfl, fun ts => iff_of_false (by simp) ?_⟩
      rintro ⟨items', hitems', hts⟩
      cases hitems.symm.trans hitems'
      cases hf.symm.trans (mapM_asRecord_eq_ok_iff.mpr hts)
  · rename_i d hd h
    exact ⟨_, fun _ => rfl, hother h fun items hitems => hd items (by cases hitems; rfl)⟩

theorem listsTags_iff (s : Session) :
    ListsTags body ts ↔ ((readTags body).run.run s).1 = .ok ts := by
  obtain ⟨r, hrun, hlists⟩ := exists_run_readTags body
  rw [hrun]
  exact (hlists ts).symm

end Client

/-- The session before and after the exchanges for pages from one on, up to a number of pages, and
what comes of them. -/
inductive Paging (c : Client) (remote : Remote) (fullName : Text) :
    Nat → Nat → Session → List Exchange → Except Fault (List Tag) → Session → Prop
  | enough {page : Nat} {s : Session} : Paging c remote fullName page 0 s [] (.ok []) s
  | failed {page pages : Nat} {s t : Session} {e : Exchange} {f : Fault}
      (h : Happens c remote s e t) (haddress : e.address = (.document, c.tagsUrl fullName page))
      (hfails : e.Fails) :
      Paging c remote fullName page (pages + 1) s [e] (.error f) t
  | last {page pages : Nat} {s t : Session} {e : Exchange} {batch : List Tag}
      (h : Happens c remote s e t) (haddress : e.address = (.document, c.tagsUrl fullName page))
      (hlists : e.Lists batch) (hshort : batch.length < Client.tagsPerPage) :
      Paging c remote fullName page (pages + 1) s [e] (.ok batch) t
  | more {page pages : Nat} {s t u : Session} {e : Exchange} {es : List Exchange}
      {r : Except Fault (List Tag)} {batch : List Tag} (h : Happens c remote s e t)
      (haddress : e.address = (.document, c.tagsUrl fullName page)) (hlists : e.Lists batch)
      (hfull : Client.tagsPerPage ≤ batch.length)
      (hrest : Paging c remote fullName (page + 1) pages t es r u) :
      Paging c remote fullName page (pages + 1) s (e :: es) (r.map (batch ++ ·)) u

/-- A listing goes from page to page. -/
theorem Client.tagsFrom_paging (c : Client) (remote : Remote) (fullName : Text) (page pages : Nat)
    (s : Session) : ∃ es, Paging c remote fullName page pages s es
      ((c.tagsFrom remote fullName page pages).run.run s).1
      ((c.tagsFrom remote fullName page pages).run.run s).2 := by
  induction pages generalizing page s with
  | zero => exact ⟨[], .enough⟩
  | succ pages ih =>
    obtain ⟨e, t, hhappens, haddress, hget⟩ :=
      c.get_happens remote (c.tagsUrl fullName page) s
    rw [tagsFrom]
    cases hresult : e.result with
    | error f =>
      rw [hresult] at hget
      rw [run_bind_error hget]
      refine ⟨[e], .failed hhappens haddress fun ts ⟨_, hbody, _⟩ => ?_⟩
      exact nomatch hresult.symm.trans hbody
    | ok body =>
      rw [hresult] at hget
      rw [run_bind_ok hget]
      obtain ⟨r, hrun, hlists⟩ := exists_run_readTags body
      cases r with
      | error f =>
        rw [run_bind_error (hrun t)]
        refine ⟨[e], .failed hhappens haddress fun ts ⟨body', hbody', hts⟩ => ?_⟩
        cases hresult.symm.trans hbody'
        exact nomatch (hlists ts).mpr hts
      | ok batch =>
        have hbatch : e.Lists batch := ⟨body, hresult, (hlists batch).mp rfl⟩
        rw [run_bind_ok (hrun t)]
        split
        · rename_i hshort
          exact ⟨[e], .last hhappens haddress hbatch hshort⟩
        · rename_i hfull
          obtain ⟨es, hrest⟩ := ih (page + 1) t
          refine ⟨e :: es, ?_⟩
          rw [run_bind]
          have hmore := hrest.more hhappens haddress hbatch (Nat.le_of_not_lt hfull)
          generalize (c.tagsFrom remote fullName (page + 1) pages).run.run t = rest at hmore ⊢
          rcases rest with ⟨_ | _, _⟩
          · exact hmore
          · exact hmore

namespace Paging

theorem visits (h : Paging c remote fullName page pages s es r t) : Visits c remote s es t := by
  induction h with
  | enough => exact .nil
  | failed h _ _ => exact .cons h .nil
  | last h _ _ _ => exact .cons h .nil
  | more h _ _ _ _ ih => exact .cons h ih

/-- The pages are asked for in order, each once. -/
theorem addresses (h : Paging c remote fullName page pages s es r t) :
    es.map (·.address) =
      (List.range' page es.length).map fun n => (.document, c.tagsUrl fullName n) := by
  induction h with
  | enough => rfl
  | failed _ haddress _ => exact congrArg (fun a => [a]) haddress
  | last _ haddress _ _ => exact congrArg (fun a => [a]) haddress
  | more _ haddress _ _ _ ih =>
    rw [List.map_cons, ih, haddress, List.length_cons, List.range'_succ]
    rfl

theorem ne_nil_iff (h : Paging c remote fullName page pages s es r t) : es ≠ [] ↔ 0 < pages := by
  cases h with
  | enough => exact ⟨fun h => absurd rfl h, nofun⟩
  | _ => exact ⟨fun _ => Nat.succ_pos _, fun _ => List.cons_ne_nil _ _⟩

private theorem of_singleton_eq {e' : Exchange} {before after : List Exchange}
    (h : [e'] = before ++ e :: after) : before = [] ∧ e' = e ∧ after = [] := by
  rcases List.singleton_eq_append_iff.mp h with ⟨rfl, h⟩ | ⟨rfl, h⟩
  · obtain ⟨rfl, rfl⟩ := List.cons.inj h
    exact ⟨rfl, rfl, rfl⟩
  · exact nomatch h

/-- Another page is asked for just if a page is full and the limit is not reached. -/
theorem follows_iff (h : Paging c remote fullName page pages s es r t)
    {before after : List Exchange} (hsplit : es = before ++ e :: after) :
    after ≠ [] ↔ (∃ batch, e.Lists batch ∧ Client.tagsPerPage ≤ batch.length) ∧
      before.length + 1 < pages := by
  induction h generalizing before with
  | enough => exact absurd hsplit.symm (List.append_ne_nil_of_right_ne_nil _ (List.cons_ne_nil _ _))
  | failed _ _ hfails =>
    obtain ⟨rfl, rfl, rfl⟩ := of_singleton_eq hsplit
    exact ⟨fun h => absurd rfl h, fun ⟨⟨batch, hlists, _⟩, _⟩ => absurd hlists (hfails batch)⟩
  | last _ _ hlists hshort =>
    obtain ⟨rfl, rfl, rfl⟩ := of_singleton_eq hsplit
    refine ⟨fun h => absurd rfl h, fun ⟨⟨batch, hlists', hfull⟩, _⟩ => ?_⟩
    cases hlists.unique hlists'
    omega
  | more _ _ hlists hfull hrest ih =>
    cases before with
    | nil =>
      obtain ⟨rfl, rfl⟩ := List.cons.inj hsplit
      rw [hrest.ne_nil_iff]
      exact ⟨fun h => ⟨⟨_, hlists, hfull⟩, Nat.succ_lt_succ h⟩, fun h => Nat.lt_of_succ_lt_succ h.2⟩
    | cons e' before =>
      obtain ⟨-, rfl⟩ := List.cons.inj hsplit
      rw [ih rfl, List.length_cons, Nat.succ_lt_succ_iff]

/-- A listing fails if one of its pages does. -/
theorem fails (h : Paging c remote fullName page pages s es r t) (he : e ∈ es)
    (hfails : e.Fails) : ∃ f, r = .error f := by
  induction h with
  | enough => exact nomatch he
  | failed => exact ⟨_, rfl⟩
  | last _ _ hlists _ =>
    cases List.mem_singleton.mp he
    exact absurd hlists (hfails _)
  | more _ _ hlists _ _ ih =>
    rcases List.mem_cons.mp he with rfl | he
    · exact absurd hlists (hfails _)
    · obtain ⟨f, rfl⟩ := ih he
      exact ⟨f, rfl⟩

end Paging

/-! ### Remote sides that serve tags -/

theorem Visits.booked (h : Visits c remote s es t) : Booked s es t := by
  induction h with
  | nil => exact .refl _
  | cons h _ ih => exact h.booked.trans ih

namespace Happens

variable {url : Text}

/-- Tokens that are left after a refill are left, also if the limiter refills at once. -/
private theorem le_refilled {l : Limiter} {now : Rat} {k : Int}
    (h : k ≤ (l.refilled now).remaining) :
    k ≤ (Limiter.refilled { l.refilled now with remaining := k } now).remaining := by
  simp only [Limiter.refilled, Limiter.full] at *
  split_ifs at * <;> dsimp only at * <;> omega

/-- An exchange takes no more than one token. -/
theorem left_le (h : Happens c remote s e t) : s.left - 1 ≤ t.left := by
  have hpaying : s.left - 1 ≤ s.paying.left := le_refilled (Int.sub_le_self _ Int.one_nonneg)
  cases h with
  | cached => exact Int.sub_le_self _ Int.one_nonneg
  | exhausted =>
    have hrefilled : s.left ≤ s.refilled.left := le_refilled (Int.le_refl _)
    omega
  | unreadable => exact hpaying
  | sent =>
    cases e.kept? with
    | none => exact hpaying
    | some body => exact hpaying

theorem prefix_sent (h : Happens c remote s e t) : s.sent <+: t.sent := by
  rw [h.booked.sent]
  exact List.prefix_append _ _

/-- What the cache does not have it does not have after an exchange for another address. -/
theorem missed (h : Happens c remote s e t) (hurl : url ≠ e.url)
    (hmissed : s.cache.get? url s.cacheTime = none) : t.cache.get? url t.cacheTime = none := by
  cases h with
  | cached => exact hmissed
  | exhausted => exact hmissed
  | unreadable => exact hmissed
  | sent _ _ _ _ he =>
    cases hkept : e.kept? with
    | none => exact hmissed
    | some body =>
      subst he
      rw [Session.keeping, Cache.get?, Cache.set, Cache.lookup_put_of_ne hurl]
      exact hmissed

/-- A document that the cache does not have is asked for if there is a token. -/
theorem sent_of_missed (h : Happens c remote s e t) (haddress : e.address = (.document, url))
    (hmissed : s.cache.get? url s.cacheTime = none) (hleft : 0 < s.left) {u : Url}
    (hurl : Url.read url = .ok u) : e.isSent = true ∧ ∀ response,
      (remote.fetch s.sent u.rooted c.authorization?).1 = .ok response → response.status = 200 →
        e.result = .ok response.body := by
  cases h with
  | cached hhit =>
    cases haddress
    exact nomatch hhit.symm.trans hmissed
  | exhausted _ hnone => omega
  | unreadable _ _ hbad =>
    cases haddress
    exact nomatch hbad.symm.trans hurl
  | sent _ _ hurl' hfetch he =>
    subst he
    cases haddress
    cases hurl'.symm.trans hurl
    refine ⟨rfl, fun response hresponse hstatus => ?_⟩
    rw [hfetch] at hresponse
    cases hresponse
    exact if_neg (not_not_intro hstatus)

end Happens

/-- After some requests, and whatever is sent after them, tags are served in consecutive pages from
one on, up to the first page that is not full. -/
def Client.ServesTags (c : Client) (remote : Remote) (before : List Request) (fullName : Text)
    (page : Nat) (ts : List Tag) : Prop :=
  ∀ n ≤ ts.length / tagsPerPage, ∃ u, Url.read (c.tagsUrl fullName (page + n)) = .ok u ∧
    ∀ sent, before <+: sent → ∃ r, (remote.fetch sent u.rooted c.authorization?).1 = .ok r ∧
      r.status = 200 ∧ ListsTags r.body ((ts.drop (tagsPerPage * n)).take tagsPerPage)

/-- Behind a full page the tags that follow are served. -/
theorem Client.ServesTags.drop {before : List Request}
    (h : c.ServesTags remote before fullName page ts) (hfull : tagsPerPage ≤ ts.length) :
    c.ServesTags remote before fullName (page + 1) (ts.drop tagsPerPage) := by
  intro n hn
  have hnext : n + 1 ≤ ts.length / tagsPerPage := by
    rw [List.length_drop] at hn
    simp only [tagsPerPage] at *
    omega
  have hpage := h (n + 1) hnext
  rwa [List.drop_drop, Nat.add_comm tagsPerPage, ← Nat.mul_succ,
    show page + 1 + n = page + (n + 1) by omega]

/-- Numbers with the same digits are the same. -/
private theorem ofNat_injective : Function.Injective Text.ofNat := by
  intro m n h
  have hchars : (toString m).toList = (toString n).toList :=
    List.map_injective_iff.mpr (fun _ _ => CodePoint.scalar.inj) h
  have hdigits (k : Nat) : Nat.ofDigitChars 10 (toString k).toList 0 = k := by simp
  rw [← hdigits m, hchars, hdigits]

theorem Client.tagsUrl_injective (c : Client) (fullName : Text) :
    Function.Injective (c.tagsUrl fullName) := by
  intro m n h
  have hnumbers : Text.ofNat m = Text.ofNat n := List.append_cancel_left h
  exact ofNat_injective hnumbers

/-- The first page is asked for, if there is a token for it, and lists the first tags. -/
private theorem Client.ServesTags.first {before : List Request}
    (hserves : c.ServesTags remote before fullName page ts) (hbefore : before <+: s.sent)
    (h : Happens c remote s e t) (haddress : e.address = (.document, c.tagsUrl fullName page))
    (hcache : s.cache.get? (c.tagsUrl fullName page) s.cacheTime = none) (hleft : 0 < s.left) :
    e.isSent = true ∧ e.Lists (ts.take tagsPerPage) := by
  obtain ⟨u, hurl, hreply⟩ := hserves 0 (Nat.zero_le _)
  obtain ⟨response, hresponse, hstatus, hlists⟩ := hreply s.sent hbefore
  obtain ⟨hsent, hresult⟩ := h.sent_of_missed haddress hcache hleft hurl
  exact ⟨hsent, response.body, hresult response hresponse hstatus, hlists⟩

/-- The tags of a remote side that serves them come back in order, and as many pages are asked for
as it takes to see the end of them, if there is a token for each and the cache has none of them. -/
theorem Paging.served {before : List Request} (h : Paging c remote fullName page pages s es r t)
    (hserves : c.ServesTags remote before fullName page ts) (hbefore : before <+: s.sent)
    (hcache : ∀ n, page ≤ n → s.cache.get? (c.tagsUrl fullName n) s.cacheTime = none)
    (hleft : (min pages (ts.length / Client.tagsPerPage + 1) : Nat) ≤ s.left) :
    r = .ok (ts.take (Client.tagsPerPage * pages)) ∧
      es.length = min pages (ts.length / Client.tagsPerPage + 1) ∧ ∀ e ∈ es, e.isSent = true := by
  have hpos {pages n : Nat} {left : Int} (h : (min (pages + 1) (n + 1) : Nat) ≤ left) :
      0 < left := by omega
  induction h generalizing ts with
  | enough => exact ⟨rfl, (Nat.zero_min _).symm, nofun⟩
  | @failed page _ s _ _ _ h haddress hfails =>
    obtain ⟨-, hlists⟩ :=
      hserves.first hbefore h haddress (hcache page (Nat.le_refl page)) (hpos hleft)
    exact absurd hlists (hfails _)
  | @last page pages s _ _ _ h haddress hlists hshort =>
    obtain ⟨hsent, hlists'⟩ :=
      hserves.first hbefore h haddress (hcache page (Nat.le_refl page)) (hpos hleft)
    cases hlists.unique hlists'
    -- a page that is not full holds all the tags
    have hall : ts.length < Client.tagsPerPage := by
      rw [List.length_take] at hshort
      omega
    refine ⟨?_, ?_, fun e' he' => List.mem_singleton.mp he' ▸ hsent⟩
    · have hmore : ts.length ≤ Client.tagsPerPage * (pages + 1) := by
        rw [Nat.mul_succ]
        omega
      rw [List.take_of_length_le hall.le, List.take_of_length_le hmore]
    · rw [Nat.div_eq_of_lt hall]
      simp
  | @more page pages s _ _ _ _ _ _ h haddress hlists hfull hrest ih =>
    obtain ⟨hsent, hlists'⟩ :=
      hserves.first hbefore h haddress (hcache page (Nat.le_refl page)) (hpos hleft)
    cases hlists.unique hlists'
    have hfull' : Client.tagsPerPage ≤ ts.length := by
      rw [List.length_take] at hfull
      omega
    have hdiv : (ts.drop Client.tagsPerPage).length / Client.tagsPerPage + 1 =
        ts.length / Client.tagsPerPage := by
      rw [List.length_drop]
      simp only [Client.tagsPerPage] at *
      omega
    have hcache' (n : Nat) (hn : page + 1 ≤ n) := h.missed
      (fun hurl => absurd (c.tagsUrl_injective fullName (hurl.trans (Prod.ext_iff.mp haddress).2))
        (by omega)) (hcache n (by omega))
    have hleft' := h.left_le
    obtain ⟨rfl, hlength, hsent'⟩ := ih (hserves.drop hfull') (hbefore.trans h.prefix_sent) hcache'
      (by rw [hdiv]; omega)
    refine ⟨?_, ?_, List.forall_mem_cons.mpr ⟨hsent, hsent'⟩⟩
    · rw [Nat.mul_succ, Nat.add_comm, List.take_add]
      rfl
    · rw [List.length_cons, hlength, hdiv]
      omega

/-- Tags are neither lost nor repeated. A listing asks for the pages from the first on, in order and
each once. After a page it asks for another just if the page is full and the limit, which is one at
least, is not reached. If a page fails then so does the call, and that page is the last one. If the
remote side serves tags in consecutive pages, the cache has none of the pages and there is a token
for each, then it sends a request for each page up to the limit or the end of the tags, and gives
the tags up to there. -/
theorem Client.tags_paged (c : Client) (remote : Remote) (fullName : Text) (maxPages : Int)
    (s : Session) :
    let pages := (max maxPages 1).toNat
    let call := (c.tags remote fullName maxPages).run.run s
    ∃ es, Visits c remote s es call.2 ∧ call.2.sent = s.sent ++ es.flatMap (·.requests) ∧
      es ≠ [] ∧ es.map (·.address) =
        (List.range' 1 es.length).map (fun n => (.document, c.tagsUrl fullName n)) ∧
      (∀ before e after, es = before ++ e :: after →
        (after ≠ [] ↔ (∃ batch, e.Lists batch ∧ tagsPerPage ≤ batch.length) ∧
          before.length + 1 < pages) ∧
        (e.Fails → (∃ f, call.1 = .error f) ∧ after = [])) ∧
      ∀ ts, c.ServesTags remote s.sent fullName 1 ts →
        (∀ n, s.cache.get? (c.tagsUrl fullName n) s.cacheTime = none) →
        (min pages (ts.length / tagsPerPage + 1) : Nat) ≤ s.left →
        call.1 = .ok (ts.take (tagsPerPage * pages)) ∧
          es.length = min pages (ts.length / tagsPerPage + 1) ∧ ∀ e ∈ es, e.isSent = true := by
  intro pages call
  obtain ⟨es, hpaging⟩ := c.tagsFrom_paging remote fullName 1 pages s
  have hpages : 0 < pages := by omega
  refine ⟨es, hpaging.visits, hpaging.visits.booked.sent, hpaging.ne_nil_iff.mpr hpages,
    hpaging.addresses, fun before e after hsplit => ?_, fun ts hserves hcache hleft => ?_⟩
  · have hfollows := hpaging.follows_iff hsplit
    refine ⟨hfollows, fun hfails => ⟨hpaging.fails (hsplit ▸ by simp) hfails, ?_⟩⟩
    by_contra hafter
    obtain ⟨⟨batch, hlists, -⟩, -⟩ := hfollows.mp hafter
    exact hfails batch hlists
  · exact hpaging.served hserves List.prefix_rfl (fun n _ => hcache n) hleft

/-! ### A list that ends with a full page -/

/-- Tags with numbers for names. -/
def numberedTags (count : Nat) : List Tag :=
  (List.range count).map fun i => ⟨Text.ofNat i, ⟨[], []⟩⟩

/-- A document that lists the names of tags. -/
def tagsBody (ts : List Tag) : Bytes :=
  let item (t : Tag) : Text := ("\x7b\"name\":\"" : Text) ++ t.name ++ "\"\x7d"
  Text.toUtf8Lossy (("[" : Text) ++ Text.join "," (ts.map item) ++ "]")

/-- A client without credentials. -/
def anonymousClient : Client := .make none none

/-- A session in which nothing has been asked for. -/
def firstSession : Session := ⟨.full anonymousCapacity 3600 0, 0, .empty 600, 0, []⟩

/-- A remote side with a hundred tags: a full page and an empty one behind it. -/
def hundredTagsRemote : Remote := fun _ q => .response ⟨200, none,
  tagsBody (if q.url = anonymousClient.tagsUrl "o/r" 1 then numberedTags 100 else [])⟩

/-- A response that redirects nowhere is the one to a request. -/
private theorem fetch_of_response {u : Url} {authorization : Option Text} {sent : List Request}
    {response : Response} (h : remote sent ⟨u.toText, authorization⟩ = .response response)
    (hstays : response.redirection? = none) :
    (remote.fetch sent u authorization).1 = .ok response := by
  unfold fetch maxRedirects follow
  simp only [h, Reply.next, hstays]

private theorem listsTags_tagsBody (count : Nat) (h : ((Client.readTags
    (tagsBody (numberedTags count))).run.run firstSession).1 = .ok (numberedTags count)) :
    ListsTags (tagsBody (numberedTags count)) (numberedTags count) :=
  (Client.listsTags_iff firstSession).mpr h

private theorem hundredTagsRemote_serves :
    anonymousClient.ServesTags hundredTagsRemote [] "o/r" 1 (numberedTags 100) := by
  have hread : ∀ n ≤ 1, (Url.read (anonymousClient.tagsUrl "o/r" (1 + n))).map (·.rooted.toText) =
      .ok (anonymousClient.tagsUrl "o/r" (1 + n)) := by decide +kernel
  intro n hn
  have hlength : (numberedTags 100).length / Client.tagsPerPage = 1 := by decide +kernel
  rw [hlength] at hn
  obtain ⟨u, hurl, htext⟩ := except_map_eq_ok.mp (hread n hn)
  refine ⟨u, hurl, fun sent _ => ⟨_, fetch_of_response rfl rfl, rfl, ?_⟩⟩
  dsimp only
  rw [htext]
  obtain rfl | rfl : n = 0 ∨ n = 1 := by omega
  · exact listsTags_tagsBody 100 (by decide +kernel)
  · exact listsTags_tagsBody 0 (by decide +kernel)

/-- Of a hundred tags two pages are asked for, of five. -/
theorem Client.tags_paged_of_hundred :
    anonymousClient.ServesTags hundredTagsRemote firstSession.sent "o/r" 1 (numberedTags 100) ∧
    (∀ n, firstSession.cache.get? (anonymousClient.tagsUrl "o/r" n) firstSession.cacheTime = none) ∧
    ((min 5 ((numberedTags 100).length / tagsPerPage + 1) : Nat) : Int) ≤ firstSession.left ∧
    ((anonymousClient.tags hundredTagsRemote "o/r" 5).run.run firstSession).1 =
      .ok (numberedTags 100) ∧
    ∃ es, Visits anonymousClient hundredTagsRemote firstSession es
        ((anonymousClient.tags hundredTagsRemote "o/r" 5).run.run firstSession).2 ∧
      es.length = 2 := by
  have hserves := hundredTagsRemote_serves
  have hcache (n : Nat) :
      firstSession.cache.get? (anonymousClient.tagsUrl "o/r" n) firstSession.cacheTime = none := rfl
  have hleft : ((min 5 ((numberedTags 100).length / tagsPerPage + 1) : Nat) : Int) ≤
      firstSession.left := by decide +kernel
  obtain ⟨es, hvisits, -, -, -, -, hserved⟩ :=
    tags_paged anonymousClient hundredTagsRemote "o/r" 5 firstSession
  obtain ⟨hresult, hlength, -⟩ := hserved _ hserves hcache hleft
  exact ⟨hserves, hcache, hleft, hresult, es, hvisits, hlength⟩

end ProviderCatalog.Remote
