import CredentialServer.Authority.Error
import CredentialServer.Directory.Error
import CredentialServer.Grants.Kind
import CredentialServer.Grants.Template
import CredentialServer.Time.Lifespan
import CredentialServer.Token.Registry

/-!
# What can go wrong with grants

A grant may be refused when it is compiled, and an operation when it is run. Main definitions:
`GrantError.message` and `OperationError.message?` give the texts.
-/

namespace CredentialServer

/-- Why a grant cannot be compiled. -/
inductive CompileError where
  | unknownKind (name : String)
  | missing (kind : PrivilegeKind) (parameters : List Parameter)
  | extraneous (kind : PrivilegeKind) (parameters : List Parameter)
  | unknownAuthority (name : String)
  | authorityMismatch (kind : PrivilegeKind) (name : String) (expected found : AuthorityKind)
  | invalidLifespan (value : String) (reason : Lifespan.ParseError)
  | nonPositiveLifespan (value : String)
  | noPrincipals
  | template (e : TemplateError)
  | directory (e : DirectoryError)
  deriving DecidableEq, Repr

def CompileError.message : CompileError → String
  | .unknownKind name => "no such privilege kind: " ++ name
  | .missing kind parameters =>
    "missing parameter(s) to " ++ kind.text ++ ": " ++ Parameter.listed parameters
  | .extraneous kind parameters =>
    "extraneous parameter(s) provided to " ++ kind.text ++ ": " ++ Parameter.listed parameters
  | .unknownAuthority name => "no such authority " ++ name
  | .authorityMismatch kind name expected found =>
    "authority " ++ name ++ " is " ++ found.text ++ ", but " ++ kind.text ++ " needs a " ++
      expected.text ++ " authority"
  | .invalidLifespan value reason =>
    "invalid lifespan " ++ quoted value ++ ": " ++ reason.message
  | .nonPositiveLifespan value =>
    "nonpositive lifespans are not supported: " ++ quoted value
  | .noPrincipals => "sign-ssh needs at least one allowed name"
  | .template e => e.message
  | .directory e => e.message

/-- Why the grants of a configuration cannot be compiled: the first bad one and its cause. -/
structure GrantError where
  api : String
  cause : CompileError
  deriving DecidableEq, Repr

def GrantError.message (e : GrantError) : String :=
  "grant " ++ e.api ++ ": " ++ e.cause.message

/-- Why a privilege refuses a request. -/
inductive PrivilegeError where
  | authority (e : AuthorityError)
  | token (e : TokenError)
  | directory (e : DirectoryError)
  | outOfScope (principal : String)
  | unexpectedBody (kind : PrivilegeKind)
  /-- The secret is no text. -/
  | binaryKey
  deriving DecidableEq, Repr

/-- What an error says, if it has a text of its own. -/
def PrivilegeError.message? : PrivilegeError → Option String
  | .authority e => e.message?
  | .token e => some e.message
  | .directory e => some e.message
  | .outOfScope principal => some s!"principal {principal} is outside of allowed scope"
  | .unexpectedBody kind => some s!"expected empty request to {kind.text} endpoint"
  | .binaryKey => some "static key is not valid utf-8"

/-- Why an operation or a batch is refused. -/
inductive OperationError where
  | malformedBatch
  | unknownApi (api : String)
  | forbidden (principal api : String)
  | failed (api principal : String) (cause : PrivilegeError)
  deriving DecidableEq, Repr

namespace OperationError

def message? : OperationError → Option String
  | .malformedBatch => none
  | .unknownApi api => some ("could not find API request " ++ quoted api)
  | .forbidden principal api =>
    some s!"account {principal} does not have access to API call {api}"
  | .failed api principal cause =>
    cause.message?.map (fun m => s!"operation {api} for {principal} failed: {m}")

/-- Whether the account lacks the privilege. -/
def isForbidden : OperationError → Bool
  | .forbidden .. => true
  | _ => false

end OperationError

end CredentialServer
