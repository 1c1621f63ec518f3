import ProviderCatalog.Remote.Url

/-!
# Requests and responses

A remote side answers each request with a response or a fault of the transport, and may do so
differently each time: its answer depends on all requests sent before. Redirections are followed up
to a limit; a request that is redirected to another server loses its credentials.

## Main definitions

* `Request`, `Response`, `Reply`, `Remote`: the two sides of an exchange.
* `Remote.fetch`: the response to a request, behind any redirections.
-/

namespace ProviderCatalog.Remote

/-- A request as it is sent. -/
structure Request where
  url : Text
  authorization : Option Text
deriving DecidableEq, Repr

/-- A response. -/
structure Response where
  status : Int
  /-- The address that the response leads to. -/
  location : Option Text
  body : Bytes
deriving DecidableEq, Repr

/-- A fault that keeps a request from being answered, under its name. -/
structure TransportFault where
  name : Text
  message : Text
deriving DecidableEq, Repr

/-- What comes back for a request. -/
inductive Reply where
  | response (r : Response)
  | fault (f : TransportFault)
deriving DecidableEq, Repr

end Remote

/-- A remote side: the reply to a request that follows the requests sent before, in order. -/
abbrev Remote := List Remote.Request → Remote.Request → Remote.Reply

namespace Remote

/-- The status codes of redirections. -/
def redirectStatuses : List Int := [301, 302, 303, 307, 308]

/-- The number of redirections that are followed. -/
def maxRedirects : Nat := 20

/-- The fault of a request that is redirected too often. -/
def tooManyRedirects : TransportFault := ⟨"TooManyRedirects", "Exceeded maximum allowed redirects."⟩

/-- The fault of a redirection to an address that cannot be read. -/
def unreadableLocation (f : UrlFault) : TransportFault :=
  ⟨"RemoteProtocolError", ("Invalid URL in location header: " : Text) ++ f.message ++ "."⟩

/-- The address that a response redirects to. -/
def Response.redirection? (r : Response) : Option Text :=
  if redirectStatuses.contains r.status then r.location else none

/-- Whether a request keeps its credentials on the way from one address to another: to the same
server, or to the same server by the secured scheme. -/
def keepsCredentials (u v : Url) : Bool :=
  u.sameOrigin v || (u.scheme = ("http" : Text) && v.scheme = ("https" : Text)
    && u.authority = v.authority)

/-- What follows from the reply to a request: a result, or another request. -/
inductive Next where
  | result (r : Except TransportFault Response)
  | redirected (url : Url) (authorization : Option Text)

/-- What follows from the reply to a request for an address. -/
def Reply.next (reply : Reply) (url : Url) (authorization : Option Text) : Next :=
  match reply with
  | fault f => .result (.error f)
  | response r =>
    match r.redirection? with
    | none => .result (.ok r)
    | some location =>
      match Url.read location with
      | .error f => .result (.error (unreadableLocation f))
      | .ok reference =>
        let target := url.join reference
        .redirected target (if keepsCredentials url target then authorization else none)

/-- Sends a request and follows up to `redirects` redirections; gives the requests sent so far as
well. -/
def follow (remote : Remote) :
    Nat → List Request → Url → Option Text → Except TransportFault Response × List Request
  | redirects, sent, url, authorization =>
    let request : Request := ⟨url.toText, authorization⟩
    let next := (remote sent request).next url authorization
    match redirects, next with
    | _, .result r => (r, sent ++ [request])
    | 0, .redirected _ _ => (.error tooManyRedirects, sent ++ [request])
    | redirects + 1, .redirected target authorization =>
      follow remote redirects (sent ++ [request]) target authorization

/-- The response to a request behind any redirections, with the requests sent so far. -/
def fetch (remote : Remote) (sent : List Request) (url : Url) (authorization : Option Text) :
    Except TransportFault Response × List Request :=
  follow remote maxRedirects sent url authorization

end Remote

end ProviderCatalog
