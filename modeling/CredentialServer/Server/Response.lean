import CredentialServer.Bytes
import CredentialServer.Grants.Error

/-!
# Responses

What a server answers. A refusal of a request tells as little as it can: the text depends on the
cause only where the sender may know it.
-/

namespace CredentialServer

/-- An answer to a request. -/
structure Response where
  status : Nat
  contentType : Option String
  /-- The methods that would be allowed. -/
  allow : Option String
  body : Bytes
  deriving DecidableEq, Repr

namespace Response

/-- The content type of plain text. -/
def plainText : String := "text/plain; charset=utf-8"

def text (status : Nat) (s : String) : Response := ⟨status, some plainText, none, Bytes.ofText s⟩

def octets (b : Bytes) : Response := ⟨200, some "application/octet-stream", none, b⟩

def json (b : Bytes) : Response := ⟨200, some "application/json", none, b⟩

/-- The answer where there is nothing. -/
def nothing : Response := ⟨404, none, none, []⟩

/-- The answer where other methods are needed. -/
def methodNotAllowed (methods : String) : Response := ⟨405, none, some methods, []⟩

def withoutBody (r : Response) : Response := { r with body := [] }

end Response

/-- Why a request is refused, as far as the sender is told. -/
inductive Refusal where
  | unauthorized
  | forbidden
  | badRequest
  | notFound (what : String)
  | internal (what : String)
  deriving DecidableEq, Repr

namespace Refusal

/-- The answer to a request that is refused. -/
def response : Refusal → Response
  | .unauthorized => .text 401 "Authentication failed."
  | .forbidden => .text 403 "Particular operation forbidden."
  | .badRequest => .text 400 "Request processing failed. See server logs for details."
  | .notFound what => .text 404 ("Request processing failed: " ++ what)
  | .internal what => .text 500 what

/-- What is told of a batch that failed. -/
def ofOperation (e : OperationError) : Refusal := if e.isForbidden then .forbidden else .badRequest

end Refusal

end CredentialServer
