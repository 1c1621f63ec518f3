import ProviderCatalog.Bytes.Base64
import ProviderCatalog.Json.Document
import ProviderCatalog.Remote.Cache
import ProviderCatalog.Remote.Exchange
import ProviderCatalog.Remote.Limiter
import ProviderCatalog.Remote.Payload
import ProviderCatalog.Text.Blank

/-!
# Asking the remote side

A client asks the remote side for documents, archives and what can be read from them. Every request
takes a token of the limiter first. Documents are kept in the cache and given out from it without a
token; archives are not.

The limiter and the cache read clocks of their own. A session holds one reading of each: between
calls the readings move on, but they stand still during a call, also if it asks more than once, as
for a readme file or for pages of tags, and during a run.

## Main definitions

* `Fault`: why a call fails.
* `Client`: the address and the credentials of a client.
* `Session`: the state that calls share, with the requests sent so far.
* `Client.get`, `Client.archive`: the two ways of asking.
* `Client.summary`, `Client.readme`, `Client.tags`, `Client.compare`: what is read from answers.
-/

namespace ProviderCatalog.Remote

/-- Why a call fails. -/
inductive Fault where
  /-- The answer has a status other than success. -/
  | refused (status : Int)
  /-- There is no archive to be had. -/
  | unavailable (status : Int)
  /-- The limiter has no token left. -/
  | exhausted
  | transport (f : TransportFault)
  | address (f : UrlFault)
  /-- The answer is not read as a document. -/
  | notDocument (f : Json.Fault)
  /-- The answer is not a list. -/
  | notList
  | undecodable (f : DecodeFault)
  | invalid (e : Invalid)
  /-- The readme file has neither a content nor an address. -/
  | noContent
  | base64 (f : Base64.Fault)
  /-- A comparison lacks one of its sides. -/
  | sideMissing
  | unencodable (f : EncodeFault)
deriving DecidableEq, Repr

namespace Fault

/-- The message of a failed call. -/
def message : Fault → Text
  | refused status => "GitHub API error: " ++ Text.ofInt status
  | unavailable status => "repository content unavailable: status " ++ Text.ofInt status
  | exhausted => "rate limit exceeded"
  | transport f => f.message
  | address f => f.message
  | notDocument f => f.message
  | notList => "expected a JSON list"
  | undecodable f => f.message
  | invalid e => e.message
  | noContent => "no content available"
  | base64 _ => "<base64 error>"
  | sideMissing => "base and head tags are required"
  | unencodable f => f.message

end Fault

/-- A client of the remote side. -/
structure Client where
  token : Option Text
  /-- The address that all others begin with. -/
  base : Text
deriving DecidableEq, Repr

/-- The state that the calls of a client share. -/
structure Session where
  limiter : Limiter
  /-- The reading of the limiter's clock. -/
  limiterTime : Rat
  cache : Cache
  /-- The reading of the cache's clock. -/
  cacheTime : Rat
  /-- The requests sent so far, in order. -/
  sent : List Request
deriving DecidableEq, Repr

/-- A call that may fail and keeps its effects on the session when it does. -/
abbrev Call := ExceptT Fault (StateM Session)

/-- The address of the remote side if no other is given. -/
def defaultBase : Text := "https://api.github.com"

/-- The requests that a window admits without credentials. -/
def anonymousCapacity : Int := 60

/-- The requests that a window admits with credentials. -/
def authenticatedCapacity : Int := 5000

/-- The requests that a window admits. -/
def capacityFor (token : Option Text) : Int :=
  if token.any (!·.isEmpty) then authenticatedCapacity else anonymousCapacity

/-- The media type that is asked for. -/
def acceptedType : Text := "application/vnd.github.v3+json"

/-- A cache handed to a client, if the client takes it: one without entries is not taken. -/
def adoptedCache? (given : Option Cache) : Option Cache := given.filter (·.size ≠ 0)

namespace Client

/-- The client with a token at an address, of which slashes at the end are dropped. -/
def make (token base : Option Text) : Client :=
  let base := match base with
    | some (p :: t) => p :: t
    | _ => defaultBase
  ⟨token, Text.dropRight (· == .scalar '/') base⟩

/-- The credentials that a request carries. Tokens of the finer kind are borne, others are named. -/
def authorization? (c : Client) : Option Text :=
  match c.token with
  | some (p :: t) =>
    let token := p :: t
    some ((if Text.startsWith token "github_pat_" then "Bearer " else "token ") ++ token)
  | _ => none

/-- The address of a repository. -/
def repositoryUrl (c : Client) (fullName : Text) : Text := c.base ++ "/repos/" ++ fullName

/-- The address of a repository's archive. -/
def archiveUrl (c : Client) (fullName : Text) : Text := c.repositoryUrl fullName ++ "/tarball"

/-- Takes a token of the limiter. -/
def takeToken : Call Unit := do
  let s ← get
  let (taken, limiter) := s.limiter.acquire s.limiterTime
  set { s with limiter }
  if !taken then throw .exhausted

/-- Sends a request behind any redirections. -/
def send (c : Client) (remote : Remote) (url : Text) : Call Response := do
  match Url.read url with
  | .error f => throw (.address f)
  | .ok u =>
    let s ← get
    let (result, sent) := remote.fetch s.sent u.rooted c.authorization?
    set { s with sent }
    match result with
    | .ok r => return r
    | .error f => throw (.transport f)

/-- The document at an address, from the cache if it is there. -/
def get (c : Client) (remote : Remote) (url : Text) : Call Bytes := do
  let s ← MonadState.get
  match s.cache.get? url s.cacheTime with
  | some body => return body
  | none =>
    takeToken
    let r ← c.send remote url
    if r.status ≠ 200 then throw (.refused r.status)
    modify fun s => { s with cache := s.cache.set url r.body s.cacheTime }
    return r.body

/-- The status codes that say that there is no archive to be had. -/
def unavailableStatuses : List Int := [403, 404, 409]

/-- The archive at an address, never from the cache. -/
def archive (c : Client) (remote : Remote) (url : Text) : Call Bytes := do
  takeToken
  let r ← c.send remote url
  if unavailableStatuses.contains r.status then throw (.unavailable r.status)
  if r.status ≠ 200 then throw (.refused r.status)
  return r.body

/-- Drops every document kept in the cache. -/
def clearCache : Call Unit := modify fun s => { s with cache := s.cache.clear }

/-- The issue of a body that is not a document. -/
def unreadable : Issue := ⟨[], .documentUnreadable⟩

/-- The record that a body holds. -/
def readRecord {α : Type} (record : String) (check : Datum → Checked α) (body : Bytes) : Call α :=
  match Json.ofBytes? body with
  | none => throw (.invalid ⟨record, [unreadable]⟩)
  | some d =>
    match (check d).asRecord record with
    | .ok a => return a
    | .error e => throw (.invalid e)

/-- The summary of a repository. -/
def summary (c : Client) (remote : Remote) (fullName : Text) : Call Summary := do
  readRecord Summary.recordName Summary.check (← c.get remote (c.repositoryUrl fullName))

/-- The text of a repository's readme file. -/
def readme (c : Client) (remote : Remote) (fullName : Text) : Call Text := do
  let body ← c.get remote (c.repositoryUrl fullName ++ "/readme")
  let contents ← readRecord Contents.recordName Contents.check body
  match contents.downloadUrl, contents.content with
  | some (p :: url), _ => return .ofUtf8Lossy (← c.get remote (p :: url))
  | _, some (p :: t) =>
    match Base64.decode (Text.erase (p :: t) (.scalar '\n')) with
    | .ok bytes => return .ofUtf8Lossy bytes
    | .error f => throw (.base64 f)
  | _, _ => throw .noContent

/-- The number of tags on a full page. -/
def tagsPerPage : Nat := 100

/-- The tags that a page lists. -/
def readTags (body : Bytes) : Call (List Tag) :=
  match Json.ofAnyBytes body with
  | .error (.undecodable f) => throw (.undecodable f)
  | .error (.unreadable f) => throw (.notDocument f)
  | .ok (.list items) =>
    match items.mapM fun d => (Tag.check d).asRecord Tag.recordName with
    | .ok tags => return tags
    | .error e => throw (.invalid e)
  | .ok _ => throw .notList

/-- The address of a page of tags. -/
def tagsUrl (c : Client) (fullName : Text) (page : Nat) : Text :=
  c.repositoryUrl fullName ++ "/tags?per_page=" ++ Text.ofNat tagsPerPage ++ "&page="
    ++ Text.ofNat page

/-- The tags on up to `pages` pages from a page on; a page that is not full is the last. -/
def tagsFrom (c : Client) (remote : Remote) (fullName : Text) (page : Nat) :
    Nat → Call (List Tag)
  | 0 => return []
  | pages + 1 => do
    let batch ← readTags (← c.get remote (c.tagsUrl fullName page))
    if batch.length < tagsPerPage then return batch
    else return batch ++ (← tagsFrom c remote fullName (page + 1) pages)

/-- The tags of a repository on the first pages, at least one page. -/
def tags (c : Client) (remote : Remote) (fullName : Text) (maxPages : Int) : Call (List Tag) :=
  c.tagsFrom remote fullName 1 (max maxPages 1).toNat

/-- The address of the comparison of two states. -/
def comparisonUrl (c : Client) (fullName older newer : Text) : Except EncodeFault Text := do
  let older ← percentEncode isUnreserved older
  let newer ← percentEncode isUnreserved newer
  return c.repositoryUrl fullName ++ "/compare/" ++ older ++ "..." ++ newer

/-- The comparison of two states of a repository. -/
def compare (c : Client) (remote : Remote) (fullName older newer : Text) : Call Comparison := do
  if older.trim.isEmpty || newer.trim.isEmpty then throw .sideMissing
  match c.comparisonUrl fullName older.trim newer.trim with
  | .error f => throw (.unencodable f)
  | .ok url => readRecord Comparison.recordName Comparison.check (← c.get remote url)

end Client

end ProviderCatalog.Remote
