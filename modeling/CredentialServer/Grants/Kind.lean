import CredentialServer.Authority.Kind

/-!
# Kinds of privileges

A grant names a kind of privilege and gives it parameters. Each kind needs some of them, takes some
more, and at most one kind of authority. Main statement: `PrivilegeKind.ofText?_text`.
-/

namespace CredentialServer

/-- What a grant may say about its privilege. -/
inductive Parameter where
  | scope
  | authority
  | isHost
  | lifespan
  | commonName
  | allowedNames
  | contents
  deriving DecidableEq, Repr

namespace Parameter

/-- All parameters, in the order in which they are listed. -/
def all : List Parameter :=
  [.scope, .authority, .isHost, .lifespan, .commonName, .allowedNames, .contents]

theorem mem_all (p : Parameter) : p ∈ all := by cases p <;> decide

/-- The name of a parameter in a configuration. -/
def text : Parameter → String
  | .scope => "scope"
  | .authority => "authority"
  | .isHost => "is_host"
  | .lifespan => "lifespan"
  | .commonName => "common_name"
  | .allowedNames => "allowed_names"
  | .contents => "contents"

/-- The names of parameters, in a row. -/
def listed (l : List Parameter) : String := ", ".intercalate (l.map text)

end Parameter

/-- The kinds of privileges. -/
inductive PrivilegeKind where
  /-- To have a certificate made for the key of a request. -/
  | signTls
  /-- To have certificates made for keys in a text. -/
  | signSsh
  /-- To have a token made for an account. -/
  | bootstrapAccount
  /-- To act as an account for the rest of a batch. -/
  | impersonate
  /-- To be told fixed contents. -/
  | constructConfiguration
  /-- To be told a secret. -/
  | fetchKey
  deriving DecidableEq, Repr

namespace PrivilegeKind

/-- The name of a kind in a configuration. -/
def text : PrivilegeKind → String
  | .signTls => "sign-tls"
  | .signSsh => "sign-ssh"
  | .bootstrapAccount => "bootstrap-account"
  | .impersonate => "impersonate"
  | .constructConfiguration => "construct-configuration"
  | .fetchKey => "fetch-key"

def ofText? (s : String) : Option PrivilegeKind :=
  if s = "sign-tls" then some .signTls
  else if s = "sign-ssh" then some .signSsh
  else if s = "bootstrap-account" then some .bootstrapAccount
  else if s = "impersonate" then some .impersonate
  else if s = "construct-configuration" then some .constructConfiguration
  else if s = "fetch-key" then some .fetchKey
  else none

theorem ofText?_text (k : PrivilegeKind) : ofText? k.text = some k := by cases k <;> decide

theorem text_of_ofText? {s : String} {k : PrivilegeKind} (h : ofText? s = some k) :
    k.text = s := by
  simp only [ofText?] at h
  repeat' split at h
  all_goals first | (cases h; subst s; rfl) | cases h

def required : PrivilegeKind → List Parameter
  | .signTls => [.authority, .lifespan, .commonName]
  | .signSsh => [.authority, .lifespan, .commonName, .allowedNames]
  | .bootstrapAccount => [.scope, .lifespan]
  | .impersonate => [.scope]
  | .constructConfiguration => [.contents]
  | .fetchKey => [.authority]

/-- The parameters that a kind takes without needing them. -/
def optional : PrivilegeKind → List Parameter
  | .signTls => [.isHost, .allowedNames]
  | .signSsh => [.isHost]
  | _ => []

/-- The kind of authority that a kind uses. -/
def authorityKind? : PrivilegeKind → Option AuthorityKind
  | .signTls => some .tls
  | .signSsh => some .ssh
  | .fetchKey => some .static
  | _ => none

end PrivilegeKind

end CredentialServer
