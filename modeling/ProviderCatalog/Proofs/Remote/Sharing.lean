import ProviderCatalog.Proofs.Remote.Courses

/-!
# Sharing a cache

Clients may be built on one cache. A client takes it if it holds something, and goes on with a cache
of its own otherwise. What one of the clients with the shared cache was answered with success is
given out to all of them, without a token and without a request, until it expires or one of them
empties the cache; it is not even replaced before.

## Main definitions

* `Cache.Holds`: a body is given out up to a point of time.
* `Visits`: the session before and after exchanges of any number of calls.
* `Company`, `Deed`: the clients that were built on a cache, and what they may do.
* `Company.Calm`: the shared cache is not emptied up to a point of time.

## Main results

* `Visits.cached`: what a session keeps is given out by the exchanges that follow.
* `Company.serves`: what one client with the shared cache was answered is given out to the others.
-/

namespace ProviderCatalog.Remote

/-- A body is given out under an address up to a point of time. -/
def Cache.Holds (cache : Cache) (url : Text) (body : Bytes) (deadline : Rat) : Prop :=
  ∃ entry, cache.entries.lookup url = some entry ∧ entry.body = body ∧ deadline ≤ entry.expiresAt

/-- The session before and after exchanges of any number of calls. -/
inductive Visits (c : Client) (remote : Remote) : Session → List Exchange → Session → Prop
  | nil {s : Session} : Visits c remote s [] s
  | cons {s t u : Session} {e es} (h : Happens c remote s e t) (hrest : Visits c remote t es u) :
      Visits c remote s (e :: es) u

variable {c : Client} {remote : Remote} {s t u : Session} {e : Exchange} {es es' : List Exchange}
  {fault? : Option Fault} {cache : Cache} {url : Text} {body : Bytes} {deadline : Rat}

theorem Visits.append (h : Visits c remote s es t) (h' : Visits c remote t es' u) :
    Visits c remote s (es ++ es') u := by
  induction h with
  | nil => exact h'
  | cons h _ ih => exact .cons h (ih h')

theorem Passes.visits (h : Passes c remote s es fault? t) : Visits c remote s es t := by
  induction h with
  | nil => exact .nil
  | failed h _ => exact .cons h .nil
  | cons h _ _ ih => exact .cons h ih

/-! ### What a cache holds -/

theorem Cache.Holds.get? (h : cache.Holds url body deadline) {now : Rat} (hnow : now < deadline) :
    cache.get? url now = some body := by
  obtain ⟨entry, hentry, rfl, hdeadline⟩ := h
  rw [Cache.get?, hentry]
  exact if_neg fun hexpired => Rat.not_le.mpr hnow (Rat.le_trans hdeadline hexpired)

theorem Cache.lookup_put_self (url : Text) (entry : CacheEntry)
    (entries : List (Text × CacheEntry)) : (put url entry entries).lookup url = some entry := by
  induction entries with
  | nil => simp [put]
  | cons x entries ih =>
    rw [put]
    split
    · rename_i hx
      rw [List.lookup_cons, beq_iff_eq.mpr hx.symm]
    · rename_i hx
      rw [List.lookup_cons, beq_eq_false_iff_ne.mpr (Ne.symm hx), ih]

theorem Cache.holds_set (cache : Cache) (url : Text) (body : Bytes) (now : Rat) :
    (cache.set url body now).Holds url body (now + cache.lifetime) :=
  ⟨_, lookup_put_self _ _ _, rfl, Rat.le_refl⟩

/-- What is stored under another address does not matter. -/
theorem Cache.Holds.set (h : cache.Holds url body deadline) {other : Text} (hother : url ≠ other)
    (body' : Bytes) (now : Rat) : (cache.set other body' now).Holds url body deadline := by
  obtain ⟨entry, hentry, hbody, hdeadline⟩ := h
  exact ⟨entry, (lookup_put_of_ne hother _ _).trans hentry, hbody, hdeadline⟩

/-! ### What exchanges leave in the cache -/

/-- The clocks stand still during an exchange, and the bodies are kept as long afterwards. -/
structure Timed (s t : Session) : Prop where
  cacheTime : t.cacheTime = s.cacheTime
  lifetime : t.cache.lifetime = s.cache.lifetime

private theorem Session.keeping_lifetime (s : Session) (url : Text) (kept? : Option Bytes) :
    (s.keeping url kept?).cache.lifetime = s.cache.lifetime := by
  cases kept? <;> rfl

theorem Happens.timed (h : Happens c remote s e t) : Timed s t := by
  cases h with
  | cached => exact ⟨rfl, rfl⟩
  | exhausted => exact ⟨rfl, rfl⟩
  | unreadable => exact ⟨rfl, rfl⟩
  | sent => exact ⟨Session.keeping_cacheTime _ _ _, Session.keeping_lifetime _ _ _⟩

theorem Visits.timed (h : Visits c remote s es t) : Timed s t := by
  induction h with
  | nil => exact ⟨rfl, rfl⟩
  | cons h _ ih =>
    exact ⟨ih.cacheTime.trans h.timed.cacheTime, ih.lifetime.trans h.timed.lifetime⟩

/-- A document that the cache holds is given out from it, and nothing else happens. -/
theorem Happens.cached_of_holds (h : Happens c remote s e t)
    (hholds : s.cache.Holds e.url body deadline) (hnow : s.cacheTime < deadline)
    (hway : e.way = .document) : e.outcome = .cached body ∧ t = s := by
  have hhit := hholds.get? hnow
  cases h with
  | cached hcached => exact ⟨congrArg _ (Option.some.inj (hcached.symm.trans hhit)), rfl⟩
  | exhausted hmissed => exact nomatch hhit.symm.trans (hmissed hway)
  | unreadable hmissed => exact nomatch hhit.symm.trans (hmissed hway)
  | sent hmissed _ _ _ he =>
    subst he
    exact nomatch hhit.symm.trans (hmissed hway)

/-- What the cache holds stays there during an exchange. -/
theorem Happens.holds (h : Happens c remote s e t) (hholds : s.cache.Holds url body deadline)
    (hnow : s.cacheTime < deadline) : t.cache.Holds url body deadline := by
  by_cases hsame : e.url = url ∧ e.way = .document
  · obtain ⟨rfl, hway⟩ := hsame
    rw [(h.cached_of_holds hholds hnow hway).2]
    exact hholds
  · cases h with
    | cached => exact hholds
    | exhausted => exact hholds
    | unreadable => exact hholds
    | sent _ _ _ _ he =>
      have hsent : (s.paying.sending e.requests).cache.Holds url body deadline := hholds
      cases hkept : e.kept? with
      | none => exact hsent
      | some body' =>
        have hway : e.way = .document := (Exchange.of_kept hkept).1
        subst he
        exact hsent.set (fun h => hsame ⟨h.symm, hway⟩) body' _

/-- A body that is kept is held as long as the cache keeps bodies. -/
theorem Happens.holds_of_kept (h : Happens c remote s e t) (hkept : e.kept? = some body) :
    t.cache.Holds e.url body (s.cacheTime + s.cache.lifetime) := by
  obtain ⟨-, request, redirected, r, houtcome, -⟩ := Exchange.of_kept hkept
  cases h with
  | cached => exact nomatch houtcome
  | exhausted => exact nomatch houtcome
  | unreadable => exact nomatch houtcome
  | sent _ _ _ _ he =>
    rw [hkept]
    subst he
    exact s.cache.holds_set _ _ _

/-- What a session holds stays there during exchanges, which give it out from the cache. -/
theorem Visits.cached (h : Visits c remote s es t) (hholds : s.cache.Holds url body deadline)
    (hnow : s.cacheTime < deadline) : t.cache.Holds url body deadline ∧
      ∀ e ∈ es, e.way = .document → e.url = url → e.outcome = .cached body := by
  induction h with
  | nil => exact ⟨hholds, nofun⟩
  | cons h _ ih =>
    obtain ⟨hlast, hrest⟩ := ih (h.holds hholds hnow) (h.timed.cacheTime ▸ hnow)
    refine ⟨hlast, List.forall_mem_cons.mpr ⟨fun hway hurl => ?_, hrest⟩⟩
    exact (h.cached_of_holds (hurl ▸ hholds) hnow hway).1

/-- What is kept after one of the exchanges is held after all of them. -/
theorem Visits.holds_of_kept (h : Visits c remote s es t) (he : e ∈ es)
    (hkept : e.kept? = some body) (hnow : s.cacheTime < s.cacheTime + s.cache.lifetime) :
    t.cache.Holds e.url body (s.cacheTime + s.cache.lifetime) := by
  induction h with
  | nil => exact nomatch he
  | cons h hrest ih =>
    have htimed := h.timed
    rcases List.mem_cons.mp he with rfl | he
    · exact (hrest.cached (h.holds_of_kept hkept) (htimed.cacheTime ▸ hnow)).1
    · rw [htimed.cacheTime, htimed.lifetime] at ih
      exact ih he hnow

/-- A document that the cache holds is given out without a token and without a request. -/
theorem Client.get_of_holds (c : Client) (remote : Remote)
    (hholds : s.cache.Holds url body deadline) (hnow : s.cacheTime < deadline) :
    (c.get remote url).run.run s = (.ok body, s) := by
  rw [get, run_bind_ok (run_get s), hholds.get? hnow]
  rfl

/-! ### Clients on one cache -/

/-- A cache that is handed to a client is taken if it holds something. -/
theorem adoptedCache?_some (cache : Cache) :
    adoptedCache? (some cache) = if cache.entries = [] then none else some cache := by
  rw [adoptedCache?, Option.filter_some, Cache.size]
  by_cases hempty : cache.entries = []
  · simp [hempty]
  · simp [hempty]

/-- The clients that were built on a cache. -/
structure Company where
  /-- The session of the clients that have the shared cache. -/
  session : Session
  /-- The clients, each with its own cache if it does not have the shared one. -/
  clients : List (Client × Option Cache)

/-- What clients on a cache may do. -/
inductive Deed where
  /-- Another client is built, which keeps bodies for some time if it has a cache of its own. -/
  | build (c : Client) (lifetime : Rat)
  | ask (i : Nat) (q : Question)
  | clear (i : Nat)
  /-- The clocks go on to other readings. -/
  | clocks (limiter cache : Rat)

namespace Company

/-- A client has the shared cache. -/
def Shares (h : Company) (i : Nat) (c : Client) : Prop := h.clients[i]? = some (c, none)

/-- The cache of its own that a client gets if it does not take the shared one. -/
def ownCache? (shared : Cache) (lifetime : Rat) : Option Cache :=
  match adoptedCache? (some shared) with
  | some _ => none
  | none => some (.empty lifetime)

/-- A turn of one of the clients. -/
def turn (remote : Remote) (h : Company) (i : Nat) (x : Client → Turn) : Company :=
  match h.clients[i]? with
  | none => h
  | some (c, none) => { h with session := (x c).run remote h.session }
  | some (c, some own) =>
    let s := (x c).run remote { h.session with cache := own }
    { session := { s with cache := h.session.cache }
      clients := h.clients.set i (c, some s.cache) }

/-- The clients after a deed. -/
def run (remote : Remote) (h : Company) : Deed → Company
  | .build c lifetime =>
    { h with clients := h.clients ++ [(c, ownCache? h.session.cache lifetime)] }
  | .ask i q => h.turn remote i (.call · q)
  | .clear i => h.turn remote i fun _ => .clearCache
  | .clocks x y => { h with session := (Turn.clocks x y).run remote h.session }

/-- The clients after deeds. -/
def after (remote : Remote) (h : Company) (ds : List Deed) : Company := ds.foldl (run remote) h

/-- Throughout some deeds the clock stays below a point of time, and no client empties the shared
cache. -/
def Calm (remote : Remote) (deadline : Rat) (h : Company) : List Deed → Prop
  | [] => h.session.cacheTime < deadline
  | d :: ds => h.session.cacheTime < deadline ∧ (∀ i c, d = .clear i → ¬h.Shares i c) ∧
    Calm remote deadline (h.run remote d) ds

/-- A client that is built takes the shared cache just if that holds something. -/
theorem build_shares (remote : Remote) (h : Company) (c : Client) (lifetime : Rat) :
    (h.run remote (.build c lifetime)).Shares h.clients.length c ↔
      h.session.cache.entries ≠ [] := by
  have hlast : (h.run remote (.build c lifetime)).clients[h.clients.length]? =
      some (c, ownCache? h.session.cache lifetime) := List.getElem?_concat_length
  rw [Shares, hlast, ownCache?, adoptedCache?_some]
  by_cases hempty : h.session.cache.entries = []
  · rw [if_pos hempty]
    exact ⟨nofun, fun hne => absurd hempty hne⟩
  · rw [if_neg hempty]
    exact ⟨fun _ => hempty, fun _ => rfl⟩

variable {h : Company} {i j : Nat} {c' : Client} {q : Question} {d : Deed} {ds : List Deed}

/-- The deeds of one client leave what the shared cache holds, unless it empties that. -/
theorem run_holds (hholds : h.session.cache.Holds url body deadline)
    (hnow : h.session.cacheTime < deadline) (hclear : ∀ i c, d = .clear i → ¬h.Shares i c) :
    (h.run remote d).session.cache.Holds url body deadline := by
  cases d with
  | build => exact hholds
  | clocks => exact hholds
  | clear i =>
    rw [run, turn]
    split
    · exact hholds
    · rename_i c hshares
      exact absurd hshares (hclear i c rfl)
    · exact hholds
  | ask i q =>
    rw [run, turn]
    split
    · exact hholds
    · rename_i c _
      obtain ⟨es, hexchanged⟩ := q.exchanged c remote h.session
      obtain ⟨fault?, hpasses, -⟩ := hexchanged.passes
      exact (hpasses.visits.cached hholds hnow).1
    · exact hholds

theorem Calm.holds (hcalm : Calm remote deadline h ds)
    (hholds : h.session.cache.Holds url body deadline) :
    (h.after remote ds).session.cache.Holds url body deadline ∧
      (h.after remote ds).session.cacheTime < deadline := by
  induction ds generalizing h with
  | nil => exact ⟨hholds, hcalm⟩
  | cons d ds ih =>
    obtain ⟨hnow, hclear, hrest⟩ := hcalm
    exact ih hrest (run_holds hholds hnow hclear)

private theorem run_ask (hshares : h.Shares i c) (remote : Remote) (q : Question) :
    h.run remote (.ask i q) = { h with session := (Turn.call c q).run remote h.session } := by
  rw [run, turn, hshares]

/-- What a client with the shared cache was answered with success is given out to every client with
that cache, also to those that are built later, until it expires or one of them empties the cache:
they get it without a token and without a request. -/
theorem serves (hshares : h.Shares i c) (hexchanged : Exchanged c remote q h.session es)
    (he : e ∈ es) (hkept : e.kept? = some body)
    (hcalm : Calm remote (h.session.cacheTime + h.session.cache.lifetime)
      (h.run remote (.ask i q)) ds) :
    let h' := (h.run remote (.ask i q)).after remote ds
    ∀ j c', h'.Shares j c' → (c'.get remote e.url).run.run h'.session = (.ok body, h'.session) ∧
      h'.run remote (.ask j (.document e.url)) = h' := by
  obtain ⟨fault?, hpasses, -⟩ := hexchanged.passes
  have hvisits := hpasses.visits
  rw [run_ask hshares] at hcalm ⊢
  have hnow : h.session.cacheTime < h.session.cacheTime + h.session.cache.lifetime := by
    have hfirst : ((Turn.call c q).run remote h.session).cacheTime <
        h.session.cacheTime + h.session.cache.lifetime := by
      cases ds with
      | nil => exact hcalm
      | cons d ds => exact hcalm.1
    rwa [Turn.run, hvisits.timed.cacheTime] at hfirst
  obtain ⟨hholds, htime⟩ := hcalm.holds (hvisits.holds_of_kept he hkept hnow)
  intro h' j c' hshares'
  have hget := c'.get_of_holds remote hholds htime
  refine ⟨hget, (run_ask hshares' remote _).trans ?_⟩
  rw [Turn.run, Question.ask, run_bind_ok hget]
  rfl

end Company

end ProviderCatalog.Remote
