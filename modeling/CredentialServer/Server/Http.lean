import CredentialServer.Server.Authentication
import CredentialServer.Server.Response
import CredentialServer.Server.Route
import CredentialServer.Server.World

/-!
# Answering requests

A request for a batch is authenticated and its batch run; two kinds of downloads are open to all.
Main statements: `respond_of_not_batch` (only a batch can change the tokens) and
`answerBatch_of_length_gt` (a batch that is too long is refused before anything else is looked at).
-/

namespace CredentialServer

/-- A request. -/
structure Request where
  method : String
  target : Bytes
  body : Bytes
  credentials : Credentials
  deriving DecidableEq, Repr

namespace World

/-- The length of the longest batch, in octets. -/
def longestBatch : Nat := 2097152

/-- Answers a batch. The first moment is that of the authentication, the others those of the
operations. -/
def answerBatch (w : World) (moments : Nat → Moment) (r : Registry) (q : Request) :
    Except Refusal Bytes × Registry :=
  if longestBatch < q.body.length then (.error .badRequest, r)
  else match authenticate w.directory w.authentication (moments 0) r q.credentials with
    | (.error _, r) => (.error .unauthorized, r)
    | (.ok account, r) =>
      match w.engine.runText (fun n => moments (n + 1)) ⟨account, r⟩ q.body with
      | (.error e, s) => (.error (.ofOperation e), s.registry)
      | (.ok answer, s) => (.ok answer, s.registry)

/-- The public half of an authority. -/
def download (w : World) (name : String) : Except Refusal Bytes :=
  match w.authorities.find? name with
  | some a => .ok a.publicHalf
  | none => .error (.notFound s!"no such authority {name}")

/-- A static file, as it is now. -/
def downloadStatic (w : World) (files : Files) (name : String) : Except Refusal Bytes :=
  match w.staticFiles.find? name with
  | none => .error (.notFound s!"no such static file {name}")
  | some path =>
    match files.read? path with
    | some content => .ok content
    | none => .error (.notFound s!"cannot read static file {name}")

/-- The answer of a download, by the name in its path. -/
def answerDownload (parameter : String) (download : String → Except Refusal Bytes)
    (encoded : Bytes) : Response :=
  match Route.name? encoded with
  | none => .text 400 ("Invalid URL: Invalid UTF-8 in `" ++ parameter ++ "`")
  | some name =>
    match download name with
    | .ok content => .octets content
    | .error e => e.response

/-- The answer to a method, where a resource can be downloaded. -/
def onDownload (method : String) (answer : Response) : Response :=
  if method = "GET" then answer
  else if method = "HEAD" then answer.withoutBody
  else .methodNotAllowed "GET,HEAD"

def respond (w : World) (files : Files) (moments : Nat → Moment) (r : Registry) (q : Request) :
    Response × Registry :=
  match Route.ofTarget q.target with
  | .batch =>
    if q.method = "POST" then
      match w.answerBatch moments r q with
      | (.ok answer, r) => (.json answer, r)
      | (.error e, r) => (e.response, r)
    else (.methodNotAllowed "POST", r)
  | .published name => (onDownload q.method (answerDownload "authority" w.download name), r)
  | .static name =>
    (onDownload q.method (answerDownload "name" (w.downloadStatic files) name), r)
  | .nowhere => (.nothing, r)

/-- Only a batch can change the tokens. -/
theorem respond_of_not_batch {w : World} {files : Files} {moments : Nat → Moment} {r : Registry}
    {q : Request} (h : Route.ofTarget q.target ≠ .batch) :
    (w.respond files moments r q).2 = r := by
  simp only [respond]
  split
  · next hb => exact absurd hb h
  · rfl
  · rfl
  · rfl

/-- A batch that is too long is refused before its credentials are looked at. -/
theorem answerBatch_of_length_gt {w : World} {moments : Nat → Moment} {r : Registry} {q : Request}
    (h : longestBatch < q.body.length) :
    w.answerBatch moments r q = (.error .badRequest, r) := by
  rw [answerBatch, if_pos h]

end World

end CredentialServer
