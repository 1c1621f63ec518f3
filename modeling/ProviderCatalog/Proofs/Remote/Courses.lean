import ProviderCatalog.Proofs.Remote.Exchanges

/-!
# The course of a session

A session goes through the calls of clients, which may empty the cache in between, while the clocks
go on. Every exchange of it is accounted for: the requests that were sent are those of the
exchanges, the tokens that are left are those that were not taken since the last refill, and
whatever the cache keeps or gives out was there before or was answered with success to a request for
a document.

## Main definitions

* `Question`, `Turn`: what a client asks for, and what may happen to a session.
* `Exchanged`: a question in a session, with its exchanges.
* `Course`: the way of a session through turns.
* `Booked`: what exchanges leave behind.

## Main results

* `Question.exchanged`: every question consists of exchanges.
* `Course.booked`: what a course leaves behind.
* `Session.after_accounts`: every session goes through its turns on a course that is accounted for.
* `unsent_is_paid`: a token may be taken although nothing is sent.
-/

namespace ProviderCatalog.Remote

/-! ### Questions -/

/-- What a client asks for. -/
inductive Question where
  | document (url : Text)
  | archive (url : Text)
  | summary (fullName : Text)
  | readme (fullName : Text)
  | tags (fullName : Text) (maxPages : Int)
  | compare (fullName older newer : Text)
deriving DecidableEq, Repr

namespace Question

/-- Asks, whatever the answer is. -/
def ask (c : Client) (remote : Remote) : Question → Call Unit
  | document url => do let _ ← c.get remote url
  | archive url => do let _ ← c.archive remote url
  | summary fullName => do let _ ← c.summary remote fullName
  | readme fullName => do let _ ← c.readme remote fullName
  | tags fullName maxPages => do let _ ← c.tags remote fullName maxPages
  | compare fullName older newer => do let _ ← c.compare remote fullName older newer

/-- Whether exchanges are for the addresses of a question. -/
def Addresses (c : Client) (q : Question) (es : List Exchange) : Prop :=
  match q with
  | document url => es.map (·.address) = [(.document, url)]
  | archive url => es.map (·.address) = [(.archive, url)]
  | summary fullName => es.map (·.address) = [(.document, c.repositoryUrl fullName)]
  | readme fullName => ∃ more : List Text, more.length ≤ 1 ∧ es.map (·.address) =
      ((c.repositoryUrl fullName ++ "/readme") :: more).map (.document, ·)
  | tags fullName maxPages => ∃ k ≤ (max maxPages 1).toNat,
      es.map (·.address) = (List.range' 1 k).map fun n => (.document, c.tagsUrl fullName n)
  | compare fullName older newer => es = [] ∨
      ∃ url, c.comparisonUrl fullName older.trim newer.trim = .ok url ∧
        es.map (·.address) = [(.document, url)]

end Question

/-- A question in a session, with its exchanges: they are for the addresses of the question, the
question fails with the fault of the last one, and it lacks a token only if the last one does. -/
structure Exchanged (c : Client) (remote : Remote) (q : Question) (s : Session)
    (es : List Exchange) : Prop where
  addresses : q.Addresses c es
  passes : ∃ fault?, Passes c remote s es fault? ((q.ask c remote).run.run s).2 ∧
    (∀ f, fault? = some f → ((q.ask c remote).run.run s).1 = .error f) ∧
    (((q.ask c remote).run.run s).1 = .error .exhausted → fault? = some .exhausted)

theorem Question.exchanging (c : Client) (remote : Remote) (q : Question) :
    Exchanging c remote (q.ask c remote) (q.Addresses c) := by
  cases q with
  | document url => exact (c.get_exchanging remote url).bindQuiet fun _ => .pure rfl
  | archive url => exact (c.archive_exchanging remote url).bindQuiet fun _ => .pure rfl
  | summary fullName => exact (c.summary_exchanging remote fullName).bindQuiet fun _ => .pure rfl
  | readme fullName => exact (c.readme_exchanging remote fullName).bindQuiet fun _ => .pure rfl
  | tags fullName maxPages =>
    exact (c.tags_exchanging remote fullName maxPages).bindQuiet fun _ => .pure rfl
  | compare fullName older newer =>
    exact (c.compare_exchanging remote fullName older newer).bindQuiet fun _ => .pure rfl

/-- Every question consists of exchanges. -/
theorem Question.exchanged (c : Client) (remote : Remote) (q : Question) (s : Session) :
    ∃ es, Exchanged c remote q s es := by
  obtain ⟨es, fault?, haddresses, hpasses⟩ := q.exchanging c remote s
  exact ⟨es, haddresses, fault?, hpasses⟩

/-! ### What exchanges leave behind -/

/-- The tokens that are left after exchanges, by the capacity of the limiter and the tokens that
were left before. -/
def tokensAfter (capacity tokens : Int) (es : List Exchange) : Int :=
  es.foldl (fun tokens e =>
    (if e.refills then capacity else tokens) - (if e.isSent || e.isUnreadable then 1 else 0)) tokens

/-- What exchanges leave behind: the requests are sent and the tokens are taken, and whatever the
cache keeps or gives out was there before or was kept after an exchange for the same address. -/
structure Booked (s : Session) (es : List Exchange) (t : Session) : Prop where
  sent : t.sent = s.sent ++ es.flatMap (·.requests)
  capacity : t.limiter.capacity = s.limiter.capacity
  tokens : t.limiter.remaining = tokensAfter s.limiter.capacity s.limiter.remaining es
  entries : ∀ x ∈ t.cache.entries, x ∈ s.cache.entries ∨
    ∃ e ∈ es, e.url = x.1 ∧ e.kept? = some x.2.body
  cached : ∀ before e after body, es = before ++ e :: after → e.outcome = .cached body →
    (∃ x ∈ s.cache.entries, x.1 = e.url ∧ x.2.body = body) ∨
      ∃ e' ∈ before, e'.url = e.url ∧ e'.kept? = some body

variable {c : Client} {remote : Remote} {s t u : Session} {e : Exchange} {es es' : List Exchange}
  {fault? : Option Fault}

/-- Without refills each request takes one token, and so does each address that cannot be read. -/
theorem tokensAfter_of_unrefilled {capacity tokens : Int} (h : ∀ e ∈ es, e.refills = false) :
    tokensAfter capacity tokens es =
      tokens - es.countP (·.isSent) - es.countP (·.isUnreadable) := by
  induction es generalizing tokens with
  | nil => simp [tokensAfter]
  | cons e es ih =>
    rw [List.forall_mem_cons] at h
    have hstep : tokensAfter capacity tokens (e :: es) =
        tokensAfter capacity (tokens - if e.isSent || e.isUnreadable then 1 else 0) es := by
      rw [tokensAfter, List.foldl_cons, h.1]
      rfl
    rw [hstep, ih h.2, List.countP_cons, List.countP_cons]
    cases houtcome : e.outcome <;>
      simp [Exchange.isSent, Exchange.isUnreadable, houtcome] <;> omega

theorem Booked.refl (s : Session) : Booked s [] s :=
  ⟨(List.append_nil _).symm, rfl, rfl, fun _ hx => .inl hx, fun _ e after _ h =>
    absurd h.symm (List.append_ne_nil_of_right_ne_nil _ (List.cons_ne_nil e after))⟩

/-- What is given out later was there before, or was kept after an exchange before. -/
theorem Booked.trans (h : Booked s es t) (h' : Booked t es' u) : Booked s (es ++ es') u := by
  have hkept {e : Exchange} {url body} (he : e ∈ es) (hurl : e.url = url)
      (hbody : e.kept? = some body) {es' : List Exchange} :
      ∃ e ∈ es ++ es', e.url = url ∧ e.kept? = some body :=
    ⟨e, List.mem_append_left _ he, hurl, hbody⟩
  constructor
  case sent => rw [h'.sent, h.sent, List.flatMap_append, List.append_assoc]
  case capacity => exact h'.capacity.trans h.capacity
  case tokens => rw [h'.tokens, h.capacity, h.tokens, tokensAfter, tokensAfter, tokensAfter,
    List.foldl_append]
  case entries =>
    intro x hx
    rcases h'.entries x hx with hx | ⟨e, he, hurl, hbody⟩
    · rcases h.entries x hx with hx | ⟨e, he, hurl, hbody⟩
      · exact .inl hx
      · exact .inr (hkept he hurl hbody)
    · exact .inr ⟨e, List.mem_append_right _ he, hurl, hbody⟩
  case cached =>
    -- what is given out by the exchanges that follow the first ones
    have hlater (middle : List Exchange) {after : List Exchange} {e : Exchange} {body}
        (hrest : es' = middle ++ e :: after) (houtcome : e.outcome = .cached body) :
        (∃ x ∈ s.cache.entries, x.1 = e.url ∧ x.2.body = body) ∨
          ∃ e' ∈ es ++ middle, e'.url = e.url ∧ e'.kept? = some body := by
      rcases h'.cached middle e after body hrest houtcome with
        ⟨x, hx, hurl, hbody⟩ | ⟨e', he', hurl, hbody⟩
      · rcases h.entries x hx with hx | ⟨e', he', hurl', hbody'⟩
        · exact .inl ⟨x, hx, hurl, hbody⟩
        · exact .inr (hkept he' (hurl'.trans hurl) (hbody ▸ hbody'))
      · exact .inr ⟨e', List.mem_append_right _ he', hurl, hbody⟩
    intro before e after body hsplit houtcome
    rcases List.append_eq_append_iff.mp hsplit with
      ⟨middle, rfl, hrest⟩ | ⟨_ | ⟨e', middle⟩, hfirst, hrest⟩
    · exact hlater middle hrest houtcome
    · rw [List.append_nil] at hfirst
      subst hfirst
      simpa only [List.append_nil] using hlater [] hrest.symm houtcome
    · obtain ⟨rfl, rfl⟩ := List.cons.inj hrest
      exact h.cached before e middle body hfirst houtcome

/-- The entries of a cache after a body was stored. -/
private theorem mem_put {url : Text} {entry : CacheEntry} {entries : List (Text × CacheEntry)}
    {x : Text × CacheEntry} (h : x ∈ Cache.put url entry entries) :
    x ∈ entries ∨ x = (url, entry) := by
  induction entries with
  | nil => exact .inr (List.mem_singleton.mp h)
  | cons y entries ih =>
    rw [Cache.put] at h
    split at h
    · rename_i hy
      rcases List.mem_cons.mp h with rfl | h
      · exact .inr (by rw [hy])
      · exact .inl (List.mem_cons_of_mem _ h)
    · rcases List.mem_cons.mp h with rfl | h
      · exact .inl List.mem_cons_self
      · exact (ih h).imp_left (List.mem_cons_of_mem _)

private theorem mem_keeping {url : Text} {kept? : Option Bytes} {x : Text × CacheEntry}
    (h : x ∈ (s.keeping url kept?).cache.entries) :
    x ∈ s.cache.entries ∨ url = x.1 ∧ kept? = some x.2.body := by
  cases kept? with
  | none => exact .inl h
  | some body =>
    rcases mem_put h with h | rfl
    · exact .inl h
    · exact .inr ⟨rfl, rfl⟩

private theorem get?_mem {cache : Cache} {url : Text} {now : Rat} {body : Bytes}
    (h : cache.get? url now = some body) : ∃ x ∈ cache.entries, x.1 = url ∧ x.2.body = body := by
  rw [Cache.get?] at h
  split at h
  · rename_i entry hentry
    split at h
    · cases h
    · obtain ⟨before, after, hentries, -⟩ := List.lookup_eq_some_iff.mp hentry
      exact ⟨(url, entry), hentries ▸ List.mem_append_right _ List.mem_cons_self, rfl,
        Option.some.inj h⟩
  · cases h

private theorem left_eq (s : Session) :
    s.left = if s.refillDue then s.limiter.capacity else s.limiter.remaining := by
  rw [Session.left, Limiter.refilled, Session.refillDue]
  simp only [decide_eq_true_eq]
  split <;> rfl

private theorem refilled_capacity (l : Limiter) (now : Rat) :
    (l.refilled now).capacity = l.capacity := by
  rw [Limiter.refilled]
  split <;> rfl

private theorem eq_of_split {before after : List Exchange} {e' : Exchange}
    (h : [e] = before ++ e' :: after) : e' = e := by
  have hmem : e' ∈ before ++ e' :: after := List.mem_append_right before List.mem_cons_self
  rw [← h] at hmem
  exact List.mem_singleton.mp hmem

/-- An exchange that gives nothing out of the cache. -/
private theorem Booked.of_asked (hcached : ∀ body, e.outcome ≠ .cached body)
    (hrefills : e.refills = s.refillDue) (hsent : t.sent = s.sent ++ e.requests)
    (hcapacity : t.limiter.capacity = s.limiter.capacity)
    (hremaining : t.limiter.remaining =
      s.left - if e.isSent || e.isUnreadable then 1 else 0)
    (hentries : ∀ x ∈ t.cache.entries, x ∈ s.cache.entries ∨
      e.url = x.1 ∧ e.kept? = some x.2.body) : Booked s [e] t where
  sent := by rw [hsent, List.flatMap_singleton]
  capacity := hcapacity
  tokens := by rw [hremaining, left_eq, ← hrefills]; rfl
  entries x hx := (hentries x hx).imp_right fun h => ⟨e, List.mem_singleton_self e, h⟩
  cached before e' after body hsplit houtcome := by
    rw [eq_of_split hsplit] at houtcome
    exact absurd houtcome (hcached body)

/-- An exchange is accounted for. -/
theorem Happens.booked (h : Happens c remote s e t) : Booked s [e] t := by
  cases h with
  | @cached url body hhit =>
    have hrefl := Booked.refl s
    refine ⟨hrefl.sent, rfl, (Int.sub_zero _).symm, fun x hx => .inl hx, ?_⟩
    intro before e after body' hsplit houtcome
    cases eq_of_split hsplit
    cases houtcome
    exact .inl (get?_mem hhit)
  | exhausted =>
    exact .of_asked (fun _ => nofun) rfl (List.append_nil _).symm (refilled_capacity _ _)
      (Int.sub_zero _).symm fun x hx => .inl hx
  | unreadable =>
    exact .of_asked (fun _ => nofun) rfl (List.append_nil _).symm (refilled_capacity _ _) rfl
      fun x hx => .inl hx
  | sent _ _ _ _ he =>
    subst he
    refine .of_asked (fun _ => nofun) rfl ?_ ?_ ?_ fun x hx =>
      mem_keeping (s := s.paying.sending _) hx
    · rw [Session.keeping_sent]
      rfl
    · rw [Session.keeping_limiter]
      exact refilled_capacity _ _
    · rw [Session.keeping_limiter]
      rfl

theorem Passes.booked (h : Passes c remote s es fault? t) : Booked s es t := by
  induction h with
  | nil => exact .refl _
  | failed h _ => exact h.booked
  | cons h _ _ ih => exact h.booked.trans ih

/-! ### The course of a session -/

/-- What may happen to a session. -/
inductive Turn where
  | call (c : Client) (q : Question)
  | clearCache
  /-- The clocks go on to other readings. -/
  | clocks (limiter cache : Rat)

/-- The session after a turn. -/
def Turn.run (remote : Remote) (x : Turn) (s : Session) : Session :=
  match x with
  | call c q => ((q.ask c remote).run.run s).2
  | clearCache => (Client.clearCache.run.run s).2
  | clocks limiter cache => { s with limiterTime := limiter, cacheTime := cache }

/-- The session after turns. -/
def Session.after (s : Session) (remote : Remote) (turns : List Turn) : Session :=
  turns.foldl (fun s x => x.run remote s) s

/-- The way of a session through turns, each with its exchanges. -/
inductive Course (remote : Remote) : Session → List (Turn × List Exchange) → Session → Prop
  | nil {s : Session} : Course remote s [] s
  | call {s t : Session} {c q es l} (h : Exchanged c remote q s es)
      (hrest : Course remote ((Turn.call c q).run remote s) l t) :
      Course remote s ((.call c q, es) :: l) t
  | clearCache {s t : Session} {l} (hrest : Course remote (Turn.clearCache.run remote s) l t) :
      Course remote s ((.clearCache, []) :: l) t
  | clocks {s t : Session} {x y l} (hrest : Course remote ((Turn.clocks x y).run remote s) l t) :
      Course remote s ((.clocks x y, []) :: l) t

/-- The exchanges of a course. -/
def exchanges (l : List (Turn × List Exchange)) : List Exchange := l.flatMap (·.2)

/-- Every session goes through its turns on a course. -/
theorem Session.exists_course (s : Session) (remote : Remote) (turns : List Turn) :
    ∃ l, l.map (·.1) = turns ∧ Course remote s l (s.after remote turns) := by
  induction turns generalizing s with
  | nil => exact ⟨[], rfl, .nil⟩
  | cons x turns ih =>
    obtain ⟨l, hl, hrest⟩ := ih (x.run remote s)
    cases x with
    | call c q =>
      obtain ⟨es, h⟩ := q.exchanged c remote s
      exact ⟨(.call c q, es) :: l, congrArg _ hl, .call h hrest⟩
    | clearCache => exact ⟨(.clearCache, []) :: l, congrArg _ hl, .clearCache hrest⟩
    | clocks x y => exact ⟨(.clocks x y, []) :: l, congrArg _ hl, .clocks hrest⟩

/-- A course is accounted for. -/
theorem Course.booked {l : List (Turn × List Exchange)} (h : Course remote s l t) :
    Booked s (exchanges l) t := by
  induction h with
  | nil => exact .refl _
  | call h _ ih =>
    obtain ⟨fault?, hpasses, -⟩ := h.passes
    exact hpasses.booked.trans ih
  | @clearCache s t l _ ih =>
    have hcleared : Booked s [] (Turn.clearCache.run remote s) :=
      { Booked.refl s with entries := nofun }
    exact hcleared.trans ih
  | @clocks s t x y l _ ih =>
    have hread : Booked s [] ((Turn.clocks x y).run remote s) := { Booked.refl s with }
    exact hread.trans ih

/-- Every session goes through its turns on a course that is accounted for: the requests that were
sent are those of its exchanges, and each exchange that sends a request takes one token, as does
each one whose address cannot be read. So without a refill that many tokens are missing. The cache
keeps and gives out nothing but what was there before and what was answered with success to the
request for a document at the same address. -/
theorem Session.after_accounts (s : Session) (remote : Remote) (turns : List Turn) :
    ∃ l, l.map (·.1) = turns ∧ Course remote s l (s.after remote turns) ∧
      Booked s (exchanges l) (s.after remote turns) ∧
      ((∀ e ∈ exchanges l, e.refills = false) →
        (s.after remote turns).limiter.remaining = s.limiter.remaining -
          (exchanges l).countP (·.isSent) - (exchanges l).countP (·.isUnreadable)) := by
  obtain ⟨l, hl, hcourse⟩ := s.exists_course remote turns
  have hbooked := hcourse.booked
  exact ⟨l, hl, hcourse, hbooked, fun h => hbooked.tokens.trans (tokensAfter_of_unrefilled h)⟩

/-- An address with a control character. -/
def controlUrl : Text := "http://example.test/\x01"

/-- A token is taken for an address with a control character, although nothing is sent. So there are
not always just as many tokens missing as requests were sent. -/
theorem unsent_is_paid :
    ¬∀ (s t : Session) (remote : Remote) (l : List (Turn × List Exchange)), Course remote s l t →
      (∀ e ∈ exchanges l, e.refills = false) →
        t.limiter.remaining = s.limiter.remaining - (exchanges l).countP (·.isSent) := by
  intro h
  let s : Session := ⟨.full 1000 3600 0, 0, .empty 600, 0, []⟩
  let remote : Remote := fun _ _ => .fault ⟨"ConnectError", "failed"⟩
  let c := Client.make none none
  let f : UrlFault := .control '\x01' 20
  have hrun : @Eq (Except Fault Unit × Session)
      (((Question.document controlUrl).ask c remote).run.run s)
      (.error (.address f), s.paying) := by
    decide +kernel
  have hleft : 0 < s.left := by decide +kernel
  have hurl : Url.read controlUrl = .error f := by decide
  have hhappens : Happens c remote s ⟨.document, controlUrl, s.refillDue, .unreadable f⟩ s.paying :=
    .unreadable (fun _ => rfl) hleft hurl
  have hexchanged : Exchanged c remote (.document controlUrl) s
      [⟨.document, controlUrl, s.refillDue, .unreadable f⟩] := by
    refine ⟨rfl, some (.address f), ?_⟩
    rw [hrun]
    exact ⟨.failed hhappens rfl, fun _ hf => congrArg Except.error (Option.some.inj hf), nofun⟩
  have hmissing := h s _ remote _ (.call hexchanged .nil) (by decide +kernel)
  rw [Turn.run, hrun] at hmissing
  exact absurd hmissing (by decide +kernel)

end ProviderCatalog.Remote
