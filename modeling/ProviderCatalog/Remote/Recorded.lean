import ProviderCatalog.Remote.Exchange

/-!
# Recorded remote sides

A recorded remote side answers from replies that are listed by address, or by the path of an
address. The replies for an address are used up one by one, and the last of them is repeated.

## Main definitions

* `Recording`, `Recording.add`: replies by address, to which later ones are added.
* `Recording.remote`: the remote side that answers from them.
-/

namespace ProviderCatalog.Remote

/-- The replies for an address or a path. -/
structure Recorded where
  key : Text
  /-- The number of requests sent when the replies were recorded. -/
  since : Nat
  replies : List Reply
deriving DecidableEq, Repr

/-- Replies by address. -/
abbrev Recording := List Recorded

/-- The part of an address behind the server, with its query. -/
def serverPath (url : Text) : Text :=
  match Text.indexOf? "://" url with
  | some i =>
    let rest := (url.drop (i + 3)).dropWhile (· != .scalar '/')
    let path := rest.takeWhile (· != .scalar '#')
    if path.isEmpty then "/" else path
  | none => url

/-- The reply where nothing is recorded. -/
def notFoundReply : Reply := .response ⟨404, none, []⟩

namespace Recording

/-- A recording with replies added after some requests; they replace those for the same keys. -/
def add (r : Recording) (since : Nat) (replies : List (Text × List Reply)) : Recording :=
  let new : Recording := replies.map fun (key, found) => ⟨key, since, found⟩
  (r.filter fun x => !new.any (·.key == x.key)) ++ new

/-- What is recorded for an address: replies for the whole address come first. -/
def find? (r : Recording) (url : Text) : Option Recorded :=
  match List.find? (·.key == url) r with
  | some x => some x
  | none => List.find? (·.key == serverPath url) r

/-- The remote side that answers from a recording. -/
def remote (r : Recording) : Remote := fun sent request =>
  match r.find? request.url with
  | none => notFoundReply
  | some x =>
    let used := (sent.drop x.since).countP fun q => (r.find? q.url).any (·.key == x.key)
    (x.replies[min used (x.replies.length - 1)]?).getD notFoundReply

end Recording

end ProviderCatalog.Remote
