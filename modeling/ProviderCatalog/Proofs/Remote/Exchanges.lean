import ProviderCatalog.Proofs.Remote.Requests

/-!
# What a call exchanges

A call asks for one address after the other. Each time it may get a document out of the cache; or it
lacks a token; or it takes a token, and then either cannot read the address or sends a request, with
the requests that it is redirected to. The cache keeps the bodies of documents that were answered
with success, and nothing else. A call ends with the first exchange that fails.

## Main definitions

* `Exchange`: an address that was asked for, and how that ended.
* `Happens`: the session before and after an exchange.
* `Passes`: the session before and after the exchanges of a call.
* `Exchanging`: a call that consists of exchanges.

## Main results

* `Client.get_exchanging`, `Client.archive_exchanging`: a document, and an archive.
* `Client.readme_exchanging` and the like: what is read from documents.
-/

namespace ProviderCatalog.Remote

/-- The two ways of asking. -/
inductive Way where
  | document
  | archive
deriving DecidableEq, Repr

/-- How it ends that an address is asked for. -/
inductive Outcome where
  /-- The document is given out from the cache. -/
  | cached (body : Bytes)
  /-- There is no token left. -/
  | exhausted
  /-- A token is taken, but the address cannot be read. -/
  | unreadable (f : UrlFault)
  /-- A token is taken and a request is sent, and then those that it is redirected to. -/
  | sent (request : Request) (redirected : List Request) (reply : Except TransportFault Response)
deriving DecidableEq, Repr

/-- An address that was asked for. -/
structure Exchange where
  way : Way
  url : Text
  /-- Whether the limiter was refilled when it was asked for a token. -/
  refills : Bool
  outcome : Outcome
deriving DecidableEq, Repr

/-- What a client makes of the response to the request for a document. -/
def Response.document (r : Response) : Except Fault Bytes :=
  if r.status ≠ 200 then .error (.refused r.status) else .ok r.body

namespace Exchange

/-- What was asked for, and in which way. -/
def address (e : Exchange) : Way × Text := (e.way, e.url)

/-- The requests that were sent. -/
def requests (e : Exchange) : List Request :=
  match e.outcome with
  | .sent request redirected _ => request :: redirected
  | _ => []

/-- Whether a request was sent, redirections aside. -/
def isSent (e : Exchange) : Bool :=
  match e.outcome with
  | .sent .. => true
  | _ => false

/-- Whether a token was taken for an address that cannot be read. -/
def isUnreadable (e : Exchange) : Bool :=
  match e.outcome with
  | .unreadable _ => true
  | _ => false

/-- The body that the cache keeps: that of a document that was answered with success. -/
def kept? (e : Exchange) : Option Bytes :=
  match e.way, e.outcome with
  | .document, .sent _ _ (.ok r) => if r.status = 200 then some r.body else none
  | _, _ => none

/-- A body is kept of documents only, of which a request was answered with success. -/
theorem of_kept {e : Exchange} {body : Bytes} (h : e.kept? = some body) : e.way = .document ∧
    ∃ request redirected r, e.outcome = .sent request redirected (.ok r) ∧ r.status = 200 ∧
      r.body = body := by
  rw [kept?] at h
  split at h
  · rename_i hway houtcome
    obtain ⟨hstatus, hbody⟩ := Option.ite_none_right_eq_some.mp h
    exact ⟨hway, _, _, _, houtcome, hstatus, Option.some.inj hbody⟩
  · exact nomatch h

/-- What an exchange comes to. -/
def result (e : Exchange) : Except Fault Bytes :=
  match e.outcome with
  | .cached body => .ok body
  | .exhausted => .error .exhausted
  | .unreadable f => .error (.address f)
  | .sent _ _ (.error f) => .error (.transport f)
  | .sent _ _ (.ok r) =>
    match e.way with
    | .document => r.document
    | .archive => r.archive

end Exchange

namespace Session

/-- Whether a refill is due. -/
def refillDue (s : Session) : Bool := s.limiter.refillAt < s.limiterTime

/-- The session after a refill, if one is due. -/
def refilled (s : Session) : Session := { s with limiter := s.limiter.refilled s.limiterTime }

/-- The session after a token was taken. -/
def paying (s : Session) : Session :=
  { s with limiter := { s.limiter.refilled s.limiterTime with remaining := s.left - 1 } }

/-- The session after some requests. -/
def sending (s : Session) (requests : List Request) : Session :=
  { s with sent := s.sent ++ requests }

/-- The session whose cache keeps a body under an address, if there is one to be kept. -/
def keeping (s : Session) (url : Text) : Option Bytes → Session
  | some body => { s with cache := s.cache.set url body s.cacheTime }
  | none => s

variable (s : Session) (url : Text) (kept? : Option Bytes)

@[simp] theorem keeping_sent : (s.keeping url kept?).sent = s.sent := by
  cases kept? <;> rfl

@[simp] theorem keeping_limiter : (s.keeping url kept?).limiter = s.limiter := by
  cases kept? <;> rfl

@[simp] theorem keeping_cacheTime : (s.keeping url kept?).cacheTime = s.cacheTime := by
  cases kept? <;> rfl

end Session

/-- The session before and after an exchange. -/
inductive Happens (c : Client) (remote : Remote) (s : Session) : Exchange → Session → Prop
  | cached {url body} (hhit : s.cache.get? url s.cacheTime = some body) :
      Happens c remote s ⟨.document, url, false, .cached body⟩ s
  | exhausted {way url} (hmissed : way = .document → s.cache.get? url s.cacheTime = none)
      (hleft : s.left ≤ 0) : Happens c remote s ⟨way, url, s.refillDue, .exhausted⟩ s.refilled
  | unreadable {way url f} (hmissed : way = .document → s.cache.get? url s.cacheTime = none)
      (hleft : 0 < s.left) (hurl : Url.read url = .error f) :
      Happens c remote s ⟨way, url, s.refillDue, .unreadable f⟩ s.paying
  | sent {way url u redirected reply e}
      (hmissed : way = .document → s.cache.get? url s.cacheTime = none)
      (hleft : 0 < s.left) (hurl : Url.read url = .ok u)
      (hfetch : remote.fetch s.sent u.rooted c.authorization? =
        (reply, s.sent ++ ⟨u.rooted.toText, c.authorization?⟩ :: redirected))
      (he : e = ⟨way, url, s.refillDue,
        .sent ⟨u.rooted.toText, c.authorization?⟩ redirected reply⟩) :
      Happens c remote s e ((s.paying.sending e.requests).keeping url e.kept?)

/-- The session before and after exchanges, of which only the last one may fail, with the fault of
it. -/
inductive Passes (c : Client) (remote : Remote) :
    Session → List Exchange → Option Fault → Session → Prop
  | nil {s} : Passes c remote s [] none s
  | failed {s t e f} (h : Happens c remote s e t) (hresult : e.result = .error f) :
      Passes c remote s [e] (some f) t
  | cons {s t u e es body fault?} (h : Happens c remote s e t) (hresult : e.result = .ok body)
      (hrest : Passes c remote t es fault? u) : Passes c remote s (e :: es) fault? u

/-- Exchanges with a property make up a call in a session: if one of them fails then the call fails
with its fault, and a call lacks a token only if an exchange does. -/
def Exchanging {α : Type} (c : Client) (remote : Remote) (x : Call α) (P : List Exchange → Prop) :
    Prop :=
  ∀ s, ∃ es fault?, P es ∧ Passes c remote s es fault? (x.run.run s).2 ∧
    (∀ f, fault? = some f → (x.run.run s).1 = .error f) ∧
    ((x.run.run s).1 = .error .exhausted → fault? = some .exhausted)

variable {α β : Type} {c : Client} {remote : Remote} {s t u : Session} {es es' : List Exchange}
  {fault? : Option Fault} {P Q R : List Exchange → Prop}

theorem Passes.append (h : Passes c remote s es none t) (h' : Passes c remote t es' fault? u) :
    Passes c remote s (es ++ es') fault? u := by
  generalize hnone : none = noFault? at h
  induction h with
  | nil => exact h'
  | failed => exact nomatch hnone
  | cons h hresult _ ih => exact .cons h hresult (ih h' hnone)

namespace Exchanging

variable {x : Call α} {f : α → Call β}

theorem mono (h : Exchanging c remote x P) (hPQ : ∀ es, P es → Q es) : Exchanging c remote x Q := by
  intro s
  obtain ⟨es, fault?, hP, hpasses⟩ := h s
  exact ⟨es, fault?, hPQ es hP, hpasses⟩

/-- A call that looks at nothing but what it is given. -/
theorem of_quiet (hstate : ∀ s, (x.run.run s).2 = s)
    (hresult : ∀ s, (x.run.run s).1 ≠ .error .exhausted) (hP : P []) : Exchanging c remote x P := by
  intro s
  refine ⟨[], none, hP, ?_, nofun, fun h => absurd h (hresult s)⟩
  rw [hstate]
  exact .nil

protected theorem pure {a : α} (hP : P []) : Exchanging c remote (pure a) P :=
  .of_quiet (fun _ => rfl) (fun _ => nofun) hP

protected theorem throw {e : Fault} (he : e ≠ .exhausted) (hP : P []) :
    Exchanging c remote (throw e : Call α) P :=
  .of_quiet (fun _ => rfl) (fun _ h => he (Except.error.inj h)) hP

/-- The exchanges of a sequence follow one another; there are none behind a part that fails. -/
protected theorem bind (hx : Exchanging c remote x P) (hf : ∀ a, Exchanging c remote (f a) Q)
    (hfirst : ∀ es, P es → R es) (hboth : ∀ es es', P es → Q es' → R (es ++ es')) :
    Exchanging c remote (x >>= f) R := by
  intro s
  obtain ⟨es, fault?, hP, hpasses, hfault, hexhausted⟩ := hx s
  rcases hrun : x.run.run s with ⟨e | a, t⟩
  · rw [hrun] at hpasses hfault hexhausted
    rw [run_bind_error hrun]
    refine ⟨es, fault?, hfirst es hP, hpasses, fun f hf => ?_, fun h => hexhausted ?_⟩
    · exact congrArg Except.error (Except.error.inj (hfault f hf))
    · exact congrArg Except.error (Except.error.inj h)
  · rw [hrun] at hpasses hfault
    have hnone : fault? = none := Option.eq_none_iff_forall_ne_some.mpr fun f hf =>
      nomatch hfault f hf
    subst hnone
    obtain ⟨es', fault?, hQ, hpasses', hrest⟩ := hf a t
    rw [run_bind_ok hrun]
    exact ⟨es ++ es', fault?, hboth es es' hP hQ, hpasses.append hpasses', hrest⟩

/-- What is made of what a call gives does not change its exchanges. -/
theorem bindQuiet (hx : Exchanging c remote x P) (hf : ∀ a, Exchanging c remote (f a) (· = [])) :
    Exchanging c remote (x >>= f) P :=
  .bind hx hf (fun _ h => h) fun es es' h h' => by rw [h', List.append_nil]; exact h

/-- What is asked for after a call that exchanges nothing makes up the exchanges. -/
theorem quietBind (hx : Exchanging c remote x (· = [])) (hf : ∀ a, Exchanging c remote (f a) P)
    (hnil : P []) : Exchanging c remote (x >>= f) P :=
  .bind hx hf (fun es h => by rw [h]; exact hnil) fun es es' h h' => by rw [h]; exact h'

/-- A call that is one exchange. -/
theorem of_happens (h : ∀ s, ∃ e t, Happens c remote s e t ∧ P [e] ∧
    (x.run.run s).2 = t ∧ ∀ f, (x.run.run s).1 = .error f ↔ e.result = .error f) :
    Exchanging c remote x P := by
  intro s
  obtain ⟨e, t, hhappens, hP, ht, hfault⟩ := h s
  rcases hresult : e.result with f | body
  · have hrun := (hfault f).mpr hresult
    refine ⟨[e], some f, hP, ?_, ?_, ?_⟩
    · exact ht ▸ .failed hhappens hresult
    · rintro _ ⟨⟩
      exact hrun
    · exact fun h => congrArg some (Except.error.inj (hrun.symm.trans h))
  · refine ⟨[e], none, hP, ?_, nofun, fun h => ?_⟩
    · exact ht ▸ .cons hhappens hresult .nil
    · exact nomatch hresult.symm.trans ((hfault _).mp h)

end Exchanging

namespace Client

variable (c : Client) (remote : Remote) (url : Text)

/-! ### One exchange -/

/-- A token is taken if there is one. -/
private theorem takeToken_cases (s : Session) :
    (s.left ≤ 0 ∧ takeToken.run.run s = (.error .exhausted, s.refilled)) ∨
      (0 < s.left ∧ takeToken.run.run s = (.ok (), s.paying)) := by
  rw [run_takeToken, Session.admits, Limiter.acquire]
  by_cases hleft : 0 < s.left
  · refine .inr ⟨hleft, ?_⟩
    rw [show (if 0 < (s.limiter.refilled s.limiterTime).remaining then _ else _) = _ from
      if_pos hleft]
    rfl
  · refine .inl ⟨by omega, ?_⟩
    rw [show (if 0 < (s.limiter.refilled s.limiterTime).remaining then _ else _) = _ from
      if_neg hleft]
    rfl

/-- The first of the requests that are sent for an address is the one for the address itself. -/
private theorem fetch_first (remote : Remote) (sent : List Request) (u : Url)
    (authorization : Option Text) : ∃ redirected,
      (remote.fetch sent u authorization).2 = sent ++ ⟨u.toText, authorization⟩ :: redirected := by
  unfold fetch maxRedirects follow
  dsimp only
  cases (remote sent ⟨u.toText, authorization⟩).next u authorization with
  | result r => exact ⟨[], rfl⟩
  | redirected v authorization' =>
    obtain ⟨redirected, h⟩ := prefix_follow remote 19 (sent ++ [⟨u.toText, authorization⟩]) v
      authorization'
    exact ⟨redirected, by rw [← h, List.append_assoc]; rfl⟩

/-- A request is sent if its address can be read. -/
private theorem send_cases (s : Session) :
    (∃ f, Url.read url = .error f ∧ (c.send remote url).run.run s = (.error (.address f), s)) ∨
      ∃ u redirected reply, Url.read url = .ok u ∧
        remote.fetch s.sent u.rooted c.authorization? =
          (reply, s.sent ++ ⟨u.rooted.toText, c.authorization?⟩ :: redirected) ∧
        (c.send remote url).run.run s = (reply.mapError .transport,
          s.sending (⟨u.rooted.toText, c.authorization?⟩ :: redirected)) := by
  rw [run_send]
  cases Url.read url with
  | error f => exact .inl ⟨f, rfl, rfl⟩
  | ok u =>
    obtain ⟨redirected, hsent⟩ := fetch_first remote s.sent u.rooted c.authorization?
    refine .inr ⟨u, redirected, _, rfl, Prod.ext rfl hsent, ?_⟩
    dsimp only
    rw [hsent]
    rfl

/-- The document at an address is one exchange. -/
theorem get_happens (s : Session) : ∃ e t, Happens c remote s e t ∧
    e.address = (.document, url) ∧ (c.get remote url).run.run s = (e.result, t) := by
  rw [get, run_bind_ok (run_get s)]
  cases hcache : s.cache.get? url s.cacheTime with
  | some body => exact ⟨_, _, .cached hcache, rfl, rfl⟩
  | none =>
    have hmissed (_ : Way.document = .document) := hcache
    dsimp only
    rcases takeToken_cases s with ⟨hleft, htoken⟩ | ⟨hleft, htoken⟩
    · rw [run_bind_error htoken]
      exact ⟨_, _, .exhausted hmissed hleft, rfl, rfl⟩
    rw [run_bind_ok htoken]
    rcases c.send_cases remote url s.paying with
      ⟨f, hurl, hsend⟩ | ⟨u, redirected, reply, hurl, hfetch, hsend⟩
    · rw [run_bind_error hsend]
      exact ⟨_, _, .unreadable hmissed hleft hurl, rfl, rfl⟩
    refine ⟨_, _, .sent hmissed hleft hurl hfetch rfl, rfl, ?_⟩
    rcases reply with f | r
    · rw [run_bind_error hsend]
      rfl
    · rw [run_bind_ok hsend]
      by_cases hstatus : r.status = 200
      · rw [if_neg (not_not_intro hstatus)]
        simp only [Exchange.result, Response.document, Exchange.kept?, if_pos hstatus,
          if_neg (not_not_intro hstatus)]
        rfl
      · rw [if_pos hstatus]
        simp only [Exchange.result, Response.document, Exchange.kept?, if_neg hstatus,
          if_pos hstatus]
        rfl

/-- The archive at an address is one exchange. -/
theorem archive_happens (s : Session) : ∃ e t, Happens c remote s e t ∧
    e.address = (.archive, url) ∧ (c.archive remote url).run.run s = (e.result, t) := by
  have hmissed (h : Way.archive = .document) : s.cache.get? url s.cacheTime = none := nomatch h
  rw [archive]
  rcases takeToken_cases s with ⟨hleft, htoken⟩ | ⟨hleft, htoken⟩
  · rw [run_bind_error htoken]
    exact ⟨_, _, .exhausted hmissed hleft, rfl, rfl⟩
  rw [run_bind_ok htoken]
  rcases c.send_cases remote url s.paying with
    ⟨f, hurl, hsend⟩ | ⟨u, redirected, reply, hurl, hfetch, hsend⟩
  · rw [run_bind_error hsend]
    exact ⟨_, _, .unreadable hmissed hleft hurl, rfl, rfl⟩
  refine ⟨_, _, .sent hmissed hleft hurl hfetch rfl, rfl, ?_⟩
  rcases reply with f | r
  · rw [run_bind_error hsend]
    rfl
  · rw [run_bind_ok hsend]
    simp only [Exchange.result, Response.archive]
    split_ifs <;> rfl

theorem get_exchanging : Exchanging c remote (c.get remote url)
    fun es => es.map (·.address) = [(.document, url)] := by
  refine .of_happens fun s => ?_
  obtain ⟨e, t, hhappens, haddress, hrun⟩ := c.get_happens remote url s
  exact ⟨e, t, hhappens, congrArg (fun a => [a]) haddress, congrArg Prod.snd hrun,
    fun f => by rw [hrun]⟩

theorem archive_exchanging : Exchanging c remote (c.archive remote url)
    fun es => es.map (·.address) = [(.archive, url)] := by
  refine .of_happens fun s => ?_
  obtain ⟨e, t, hhappens, haddress, hrun⟩ := c.archive_happens remote url s
  exact ⟨e, t, hhappens, congrArg (fun a => [a]) haddress, congrArg Prod.snd hrun,
    fun f => by rw [hrun]⟩

/-! ### What is read from documents -/

variable {c remote}

theorem readRecord_exchanging (record : String) (check : Datum → Checked α) (body : Bytes)
    (hP : P []) : Exchanging c remote (readRecord record check body) P := by
  rw [readRecord.eq_def]
  split
  · exact .throw (fun h => Fault.noConfusion h) hP
  · split
    · exact .pure hP
    · exact .throw (fun h => Fault.noConfusion h) hP

theorem readTags_exchanging (body : Bytes) (hP : P []) :
    Exchanging c remote (readTags body) P := by
  rw [readTags.eq_def]
  split
  · exact .throw nofun hP
  · exact .throw nofun hP
  · split
    · exact .pure hP
    · exact .throw nofun hP
  · exact .throw nofun hP

variable (c remote) (fullName : Text)

theorem summary_exchanging : Exchanging c remote (c.summary remote fullName)
    fun es => es.map (·.address) = [(.document, c.repositoryUrl fullName)] :=
  (c.get_exchanging remote _).bindQuiet fun _ => readRecord_exchanging _ _ _ rfl

/-- The readme text is told about in one document, and may be in a second one. -/
theorem readme_exchanging : Exchanging c remote (c.readme remote fullName) fun es =>
    ∃ more : List Text, more.length ≤ 1 ∧ es.map (·.address) =
      ((c.repositoryUrl fullName ++ "/readme") :: more).map (.document, ·) := by
  have hnone : ∃ more : List Text, more.length ≤ 1 ∧ ([] : List Exchange).map (·.address) =
      more.map (.document, ·) := ⟨[], Nat.zero_le 1, rfl⟩
  refine .bind (Q := fun es => ∃ more : List Text, more.length ≤ 1 ∧
    es.map (·.address) = more.map (.document, ·)) (c.get_exchanging remote _) (fun body => ?_)
    (fun es h => ⟨[], Nat.zero_le 1, h⟩) fun es es' h ⟨more, hmore, h'⟩ => ⟨more, hmore, ?_⟩
  · refine .quietBind (readRecord_exchanging _ _ body rfl) (fun contents => ?_) hnone
    split
    · exact ((c.get_exchanging remote _).bindQuiet fun _ => .pure rfl).mono fun es h =>
        ⟨[_], Nat.le_refl 1, h⟩
    · split
      · exact .pure hnone
      · exact .throw nofun hnone
    · exact .throw nofun hnone
  · rw [List.map_append, h, h']
    rfl

/-- Tags are listed page after page. -/
theorem tagsFrom_exchanging (page pages : Nat) :
    Exchanging c remote (c.tagsFrom remote fullName page pages) fun es => ∃ k ≤ pages,
      es.map (·.address) = (List.range' page k).map fun n => (.document, c.tagsUrl fullName n) := by
  induction pages generalizing page with
  | zero => exact .pure ⟨0, Nat.le_refl 0, rfl⟩
  | succ pages ih =>
    have hnone : ∃ k ≤ pages, ([] : List Exchange).map (·.address) =
        (List.range' (page + 1) k).map fun n => (.document, c.tagsUrl fullName n) :=
      ⟨0, Nat.zero_le pages, rfl⟩
    refine .bind (Q := fun es => ∃ k ≤ pages, es.map (·.address) =
        (List.range' (page + 1) k).map fun n => (.document, c.tagsUrl fullName n))
      (c.get_exchanging remote _)
      (fun body => .quietBind (readTags_exchanging body rfl) (fun batch => ?_) hnone)
      (fun es h => ⟨1, Nat.le_add_left 1 pages, h⟩) fun es es' h ⟨k, hk, h'⟩ => ?_
    · split
      · exact .pure hnone
      · exact (ih (page + 1)).bindQuiet fun _ => .pure rfl
    · refine ⟨k + 1, Nat.succ_le_succ hk, ?_⟩
      rw [List.map_append, h, h', List.range'_succ]
      rfl

theorem tags_exchanging (maxPages : Int) : Exchanging c remote (c.tags remote fullName maxPages)
    fun es => ∃ k ≤ (max maxPages 1).toNat,
      es.map (·.address) = (List.range' 1 k).map fun n => (.document, c.tagsUrl fullName n) :=
  c.tagsFrom_exchanging remote fullName 1 _

theorem compare_exchanging (older newer : Text) :
    Exchanging c remote (c.compare remote fullName older newer) fun es => es = [] ∨
      ∃ url, c.comparisonUrl fullName older.trim newer.trim = .ok url ∧
        es.map (·.address) = [(.document, url)] := by
  rw [compare]
  split
  · exact .of_quiet (fun _ => rfl) (fun _ => nofun) (.inl rfl)
  · split
    · exact .throw nofun (.inl rfl)
    · rename_i url hurl
      exact ((c.get_exchanging remote url).bindQuiet fun _ =>
        readRecord_exchanging _ _ _ rfl).mono fun es h => .inr ⟨url, hurl, h⟩

end Client

end ProviderCatalog.Remote
