import ProviderCatalog.Proofs.Computation
import Mathlib.Tactic.SplitIfs
import Mathlib.Data.List.Infix

/-!
# Tokens and requests

A call takes no more tokens of the limiter than it asks for documents, and a request is admitted
while there is a token left. What a client makes of the response to the request for an archive
depends on nothing but the response.

A remote side may answer differently each time, by what was sent before. It reports a repository if
it gives the same summary from some point on, whatever else is sent. While there is a token, and the
cache does not have the document, a client that asks for such a repository gets the summary, and
sends nothing but this one request, behind its redirections.

## Main definitions

* `Session.left`, `Session.admits`: the tokens that are left, and whether there is one.
* `Costs`: a call takes no more than a number of tokens.
* `Response.archive`: what a client makes of the response to the request for an archive.
* `Summary.ofBody?`: the summary that a body holds.
* `Client.sentAfter`: the requests that were sent after a request for a document.
* `Client.Reports`, `Client.reported?`: a repository is reported with a summary.

## Main results

* `follow_congr`: remote sides that reply alike to some requests.
* `Client.readme_costs`: the readme text of a repository costs two tokens at most.
* `Client.archive_admitted`: an archive that is asked for while there is a token.
* `prefix_follow`: requests are sent after those that were sent before.
* `Client.Reports.run_summary`: the summary of a repository that is reported.
-/

namespace ProviderCatalog.Remote

/-- The number of tokens that are left, after a refill if one is due. -/
def Session.left (s : Session) : Int := (s.limiter.refilled s.limiterTime).remaining

/-- Whether the next request is admitted. -/
def Session.admits (s : Session) : Bool := (s.limiter.acquire s.limiterTime).1

/-- What a client makes of the response to the request for an archive. -/
def Response.archive (r : Response) : Except Fault Bytes :=
  if Client.unavailableStatuses.contains r.status then .error (.unavailable r.status)
  else if r.status ≠ 200 then .error (.refused r.status)
  else .ok r.body

theorem Response.archive_unavailable {r : Response}
    (h : r.status ∈ Client.unavailableStatuses) : r.archive = .error (.unavailable r.status) :=
  if_pos (List.contains_iff_mem.mpr h)

theorem Response.archive_ok {r : Response} (h : r.status = 200) : r.archive = .ok r.body := by
  rw [archive, h]
  rfl

variable {α β : Type} {s : Session} {j k : Nat}

/-! ### Tokens -/

theorem Session.admits_of_left (h : 0 < s.left) : s.admits = true := by
  rw [admits, Limiter.acquire]
  exact congrArg Prod.fst (if_pos h)

/-- Whoever asks for a token leaves all tokens but one, also if the limiter refills at once. -/
private theorem left_acquire (l : Limiter) (now : Rat) :
    (l.refilled now).remaining - 1 ≤ ((l.acquire now).2.refilled now).remaining := by
  simp only [Limiter.acquire, Limiter.refilled, Limiter.full]
  split_ifs <;> dsimp only at * <;> omega

/-- A call takes no more than `k` tokens, whether it fails or not. -/
def Costs (k : Nat) (c : Call α) : Prop :=
  ∀ s, (c.run.run s).2.limiterTime = s.limiterTime ∧ s.left - k ≤ (c.run.run s).2.left

namespace Costs

variable {c : Call α} {f : α → Call β}

theorem mono (h : Costs j c) (hjk : j ≤ k) : Costs k c := by
  intro s
  obtain ⟨htime, hleft⟩ := h s
  exact ⟨htime, by omega⟩

/-- A call that leaves the limiter costs nothing. -/
theorem of_keeps (hlimiter : ∀ s, (c.run.run s).2.limiter = s.limiter)
    (htime : ∀ s, (c.run.run s).2.limiterTime = s.limiterTime) : Costs 0 c := by
  intro s
  refine ⟨htime s, ?_⟩
  rw [Session.left, Session.left, hlimiter, htime]
  omega

protected theorem pure (a : α) : Costs 0 (pure a : Call α) := .of_keeps (fun _ => rfl) fun _ => rfl

protected theorem throw (f : Fault) : Costs 0 (throw f : Call α) :=
  .of_keeps (fun _ => rfl) fun _ => rfl

/-- The costs of a sequence add up; a call that fails saves those of the rest. -/
protected theorem bind (hc : Costs j c) (hf : ∀ a, Costs k (f a)) : Costs (j + k) (c >>= f) := by
  intro s
  obtain ⟨htime, hleft⟩ := hc s
  rcases hrun : c.run.run s with ⟨e | a, t⟩
  · rw [hrun] at htime hleft
    rw [run_bind_error hrun]
    exact ⟨htime, by omega⟩
  · rw [hrun] at htime hleft
    dsimp only at htime hleft
    rw [run_bind_ok hrun]
    obtain ⟨htime', hleft'⟩ := hf a t
    exact ⟨htime'.trans htime, by omega⟩

end Costs

/-! ### Requests -/

/-- Two remote sides that reply alike to some requests, whatever else was sent before, lead to one
response along any redirections among those requests. -/
theorem follow_congr {remote remote' : Remote} {P : Request → Prop}
    (hsame : ∀ sent sent' q, P q → remote sent q = remote' sent' q)
    (hnext : ∀ sent q u v authorization authorization', P q →
      (remote sent q).next u authorization = .redirected v authorization' →
        P ⟨v.toText, authorization'⟩)
    (redirects : Nat) (sent sent' : List Request) {u : Url} {authorization : Option Text}
    (h : P ⟨u.toText, authorization⟩) :
    (follow remote redirects sent u authorization).1 =
      (follow remote' redirects sent' u authorization).1 := by
  induction redirects generalizing sent sent' u authorization with
  | zero =>
    unfold follow
    dsimp only
    rw [hsame sent sent' _ h]
    cases (remote' sent' ⟨u.toText, authorization⟩).next u authorization <;> rfl
  | succ redirects ih =>
    unfold follow
    dsimp only
    rw [← hsame sent sent' _ h]
    cases hreply : (remote sent ⟨u.toText, authorization⟩).next u authorization with
    | result r => rfl
    | redirected v authorization' => exact ih _ _ (hnext sent _ u v _ _ h hreply)

namespace Client

variable (c : Client) (remote : Remote) (url : Text)

/-- A request looks at no more than the requests sent before. -/
theorem run_send (s : Session) : (c.send remote url).run.run s = match Url.read url with
    | .error f => (.error (.address f), s)
    | .ok u =>
      ((remote.fetch s.sent u.rooted c.authorization?).1.mapError .transport,
        { s with sent := (remote.fetch s.sent u.rooted c.authorization?).2 }) := by
  rw [send]
  cases Url.read url with
  | error f => rfl
  | ok u =>
    dsimp only
    rw [run_bind, run_get]
    dsimp only
    rcases remote.fetch s.sent u.rooted c.authorization? with ⟨_ | _, _⟩ <;> rfl

theorem send_response (s : Session) : ((c.send remote url).run.run s).1 = match Url.read url with
    | .error f => .error (.address f)
    | .ok u => (remote.fetch s.sent u.rooted c.authorization?).1.mapError .transport := by
  rw [run_send]
  cases Url.read url <;> rfl

theorem run_takeToken (s : Session) : takeToken.run.run s =
    (if s.admits then .ok () else .error .exhausted,
      { s with limiter := (s.limiter.acquire s.limiterTime).2 }) := by
  rw [takeToken, run_bind, run_get]
  dsimp only
  rw [Session.admits]
  rcases s.limiter.acquire s.limiterTime with ⟨_ | _, _⟩ <;> rfl

theorem takeToken_costs : Costs 1 takeToken := by
  intro s
  rw [run_takeToken]
  exact ⟨rfl, left_acquire s.limiter s.limiterTime⟩

theorem send_costs : Costs 0 (c.send remote url) := by
  refine .of_keeps (fun s => ?_) fun s => ?_ <;>
    rw [run_send] <;> cases Url.read url <;> rfl

/-- A document costs a token, unless the cache has it. -/
theorem get_costs : Costs 1 (c.get remote url) := by
  refine .bind (j := 0) (k := 1) (.of_keeps (fun _ => rfl) fun _ => rfl) fun s => ?_
  split
  · exact (Costs.pure _).mono (Nat.zero_le 1)
  · refine .bind takeToken_costs fun _ => .bind (k := 0) (c.send_costs remote url) fun r => ?_
    split
    · exact .throw _
    · exact .bind (.of_keeps (fun _ => rfl) fun _ => rfl) fun _ => .pure _

theorem readRecord_costs (record : String) (check : Datum → Checked α) (body : Bytes) :
    Costs 0 (readRecord record check body) := by
  rw [readRecord.eq_def]
  split
  · exact .throw _
  · split
    · exact .pure _
    · exact .throw _

/-- The readme text costs a token for what is told about it, and one for its text if that has an
address of its own. -/
theorem readme_costs (fullName : Text) : Costs 2 (c.readme remote fullName) := by
  refine .bind (c.get_costs remote _) fun body => .bind (j := 0) (k := 1)
    (readRecord_costs _ _ body) fun contents => ?_
  split
  · exact .bind (k := 0) (c.get_costs remote _) fun _ => .pure _
  · refine Costs.mono ?_ (Nat.zero_le 1)
    split
    · exact .pure _
    · exact .throw _
  · exact (Costs.throw _).mono (Nat.zero_le 1)

/-- While there is a token, the request for an archive is sent, and what is made of it depends on
nothing but what comes back. -/
theorem archive_admitted (h : s.admits = true) :
    ((c.archive remote url).run.run s).1 =
      ((c.send remote url).run.run s).1.bind Response.archive := by
  have hsame (l : Limiter) : ((c.send remote url).run.run { s with limiter := l }).1 =
      ((c.send remote url).run.run s).1 := by
    rw [run_send, run_send]
    cases Url.read url <;> rfl
  have htoken := run_takeToken s
  rw [if_pos h] at htoken
  rw [archive, run_bind_ok htoken, ← hsame, run_bind]
  rcases (c.send remote url).run.run
    { s with limiter := (s.limiter.acquire s.limiterTime).2 } with ⟨f | r, t⟩
  · rfl
  · dsimp only [Except.bind]
    rw [Response.archive]
    split_ifs <;> rfl

end Client

end ProviderCatalog.Remote

namespace ProviderCatalog.Remote

/-- The summary of a repository that a body holds. -/
def Summary.ofBody? (body : Bytes) : Option Summary :=
  (Json.ofBytes? body).bind fun d => ((check d).asRecord recordName).toOption

theorem Cache.lookup_put_of_ne {address other : Text} (h : other ≠ address) (e : CacheEntry)
    (entries : List (Text × CacheEntry)) :
    (put address e entries).lookup other = entries.lookup other := by
  have hother : (other == address) = false := beq_eq_false_iff_ne.mpr h
  induction entries with
  | nil => rw [put, List.lookup_cons, hother]
  | cons x entries ih =>
    obtain ⟨a, e'⟩ := x
    rw [put]
    split
    · rename_i ha
      rw [List.lookup_cons, List.lookup_cons, ha, hother]
    · rw [List.lookup_cons, List.lookup_cons, ih]

variable {c : Client} {remote : Remote} {before sent : List Request} {fullName : Text}
  {s s' : Summary}

/-- Requests are sent after those that were sent before. -/
theorem prefix_follow (remote : Remote) (redirects : Nat) (sent : List Request) (u : Url)
    (authorization : Option Text) : sent <+: (follow remote redirects sent u authorization).2 := by
  induction redirects generalizing sent u authorization with
  | zero =>
    unfold follow
    dsimp only
    cases (remote sent ⟨u.toText, authorization⟩).next u authorization <;>
      exact List.prefix_append _ _
  | succ redirects ih =>
    unfold follow
    dsimp only
    cases (remote sent ⟨u.toText, authorization⟩).next u authorization with
    | result r => exact List.prefix_append _ _
    | redirected v authorization' => exact (List.prefix_append _ _).trans (ih _ _ _)

namespace Client

/-- The requests that were sent after a request for the document at an address, in order. -/
def sentAfter (c : Client) (remote : Remote) (sent : List Request) (url : Text) : List Request :=
  match Url.read url with
  | .error _ => sent
  | .ok u => (remote.fetch sent u.rooted c.authorization?).2

theorem prefix_sentAfter (c : Client) (remote : Remote) (sent : List Request) (url : Text) :
    sent <+: c.sentAfter remote sent url := by
  rw [sentAfter]
  split
  · exact List.prefix_rfl
  · exact prefix_follow _ _ _ _ _

/-- After some requests, and whatever is sent after them, the document of a repository is answered
with one that holds a summary. -/
def Reports (c : Client) (remote : Remote) (before : List Request) (fullName : Text)
    (s : Summary) : Prop :=
  ∃ u, Url.read (c.repositoryUrl fullName) = .ok u ∧ ∀ sent, before <+: sent →
    ∃ r, (remote.fetch sent u.rooted c.authorization?).1 = .ok r ∧ r.status = 200 ∧
      Summary.ofBody? r.body = some s

namespace Reports

/-- A repository is reported with one summary only. -/
theorem unique (h : c.Reports remote before fullName s) (h' : c.Reports remote before fullName s') :
    s = s' := by
  obtain ⟨u, hu, hreply⟩ := h
  obtain ⟨u', hu', hreply'⟩ := h'
  cases hu.symm.trans hu'
  obtain ⟨r, hr, -, hs⟩ := hreply before List.prefix_rfl
  obtain ⟨r', hr', -, hs'⟩ := hreply' before List.prefix_rfl
  cases hr.symm.trans hr'
  exact Option.some.inj (hs.symm.trans hs')

private theorem run_readRecord {body : Bytes} (h : Summary.ofBody? body = some s) (x : Session) :
    (readRecord Summary.recordName Summary.check body).run.run x = (.ok s, x) := by
  obtain ⟨d, hd, hs⟩ := Option.bind_eq_some_iff.mp h
  rw [readRecord, hd]
  dsimp only
  rw [eq_ok_of_toOption hs]
  rfl

/-- The summary of a repository that is reported is given for a token. The cache gets its document,
and no other. -/
theorem run_summary (h : c.Reports remote before fullName s) {x : Session}
    (hbefore : before <+: x.sent)
    (hcache : x.cache.entries.lookup (c.repositoryUrl fullName) = none) (hleft : 0 < x.left) :
    ∃ y, (c.summary remote fullName).run.run x = (.ok s, y) ∧
      y.sent = c.sentAfter remote x.sent (c.repositoryUrl fullName) ∧ x.left - 1 ≤ y.left ∧
      ∀ url, url ≠ c.repositoryUrl fullName →
        y.cache.entries.lookup url = x.cache.entries.lookup url := by
  obtain ⟨u, hu, hreply⟩ := h
  obtain ⟨r, hr, hstatus, hs⟩ := hreply x.sent hbefore
  have htoken := run_takeToken x
  rw [if_pos (Session.admits_of_left hleft)] at htoken
  have hget : (c.get remote (c.repositoryUrl fullName)).run.run x = (.ok r.body, { x with
      limiter := (x.limiter.acquire x.limiterTime).2
      sent := (remote.fetch x.sent u.rooted c.authorization?).2
      cache := x.cache.set (c.repositoryUrl fullName) r.body x.cacheTime }) := by
    have hmissed : x.cache.get? (c.repositoryUrl fullName) x.cacheTime = none := by
      rw [Cache.get?, hcache]
    rw [Client.get, run_bind_ok (run_get x), hmissed]
    dsimp only
    rw [run_bind_ok htoken, run_bind, run_send, hu]
    dsimp only
    rw [hr]
    dsimp only [Except.mapError]
    rw [if_neg (fun hne => hne hstatus)]
    rfl
  have hcost := c.get_costs remote (c.repositoryUrl fullName) x
  rw [hget] at hcost
  refine ⟨_, (run_bind_ok hget _).trans (run_readRecord hs _), ?_, hcost.2, fun url hurl => ?_⟩
  · rw [sentAfter, hu]
  · exact Cache.lookup_put_of_ne hurl _ _

end Reports

/-- The summary that the first document of a repository holds. -/
def reported? (c : Client) (remote : Remote) (fullName : Text) : Option Summary :=
  match Url.read (c.repositoryUrl fullName) with
  | .error _ => none
  | .ok u =>
    match (remote.fetch [] u.rooted c.authorization?).1 with
    | .error _ => none
    | .ok r => if r.status = 200 then Summary.ofBody? r.body else none

/-- A remote side whose replies do not depend on what was sent before reports what it tells
first. -/
theorem Reports.of_steady (hsteady : ∀ sent sent' q, remote sent q = remote sent' q)
    (h : c.reported? remote fullName = some s) : c.Reports remote before fullName s := by
  rw [reported?] at h
  split at h
  · exact nomatch h
  · rename_i u hu
    refine ⟨u, hu, fun sent _ => ?_⟩
    split at h
    · exact nomatch h
    · rename_i r hr
      obtain ⟨hstatus, hs⟩ := Option.ite_none_right_eq_some.mp h
      refine ⟨r, Eq.trans ?_ hr, hstatus, hs⟩
      exact follow_congr (P := fun _ => True) (fun _ _ q _ => hsteady _ _ q)
        (fun _ _ _ _ _ _ _ _ => trivial) _ _ _ trivial

end Client

end ProviderCatalog.Remote
