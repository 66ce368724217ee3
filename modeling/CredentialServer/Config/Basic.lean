import CredentialServer.Authority.Kind
import CredentialServer.Document.Basic

/-!
# Configuration

What a server is told: where it listens, where its files are, its authorities, groups, accounts and
grants. Every field of the whole has a default. Main definitions: `Config.ofDocument?` reads a
configuration and `Config.toDocument` writes one with every field present.
-/

namespace CredentialServer

/-- The identity that the server shows to its clients. -/
structure ServerIdentity where
  authority : String
  names : List String
  lifespan : String
  deriving DecidableEq, Repr

/-- Where the halves of an authority are kept. -/
structure AuthorityFiles where
  kind : AuthorityKind
  key : String
  cert : String
  deriving DecidableEq, Repr

/-- A group: its members are members of its parent, too. -/
structure GroupConfig where
  parent : Option String
  deriving DecidableEq, Repr, Inhabited

/-- An account: with `limitAddress`, direct requests must come from the address in its metadata. -/
structure AccountConfig where
  principal : String
  group : Option String
  disableDirectAuth : Bool
  limitAddress : Bool
  metadata : NameMap String
  deriving DecidableEq, Repr, Inhabited

/-- A grant as it is written: which parameters it needs depends on its privilege. -/
structure Grant where
  group : String
  privilege : String
  scope : Option String
  authority : Option String
  isHost : Option Bool
  lifespan : Option String
  commonName : Option String
  allowedNames : Option (List String)
  contents : Option String
  deriving DecidableEq, Repr, Inhabited

/-- A whole configuration. -/
structure Config where
  listenAddress : String
  authorityDir : String
  staticDir : String
  authenticationAuthority : String
  serverIdentity : Option ServerIdentity
  staticFiles : List String
  authorities : NameMap AuthorityFiles
  groups : NameMap GroupConfig
  accounts : List AccountConfig
  grants : NameMap Grant
  deriving DecidableEq, Repr

/-- The configuration of a server that is told nothing. -/
def Config.default : Config where
  listenAddress := "0.0.0.0:20557"
  authorityDir := "/etc/keyserver/authorities"
  staticDir := "/etc/keyserver/static"
  authenticationAuthority := "clustertls"
  serverIdentity := none
  staticFiles := []
  authorities := ∅
  groups := ∅
  accounts := []
  grants := ∅

instance : Inhabited Config := ⟨Config.default⟩

/-- The lifespan of a server's certificate if none is given. -/
def ServerIdentity.defaultLifespan : String := "24h"

/-! ### Reading -/

open Document

/-- Reads a kind: its word, or a table that gives that word nothing. -/
def AuthorityKind.ofDocument? (dialect : Dialect) : Document → Option AuthorityKind
  | .text s => AuthorityKind.ofText? s
  | .table [(s, d)] => if isUnit dialect d then AuthorityKind.ofText? s else none
  | _ => none

/-- Reads the identity of a server; only its lifespan may be missing. -/
def ServerIdentity.ofDocument? (dialect : Dialect) (d : Document) : Option ServerIdentity := do
  let f ← fields? dialect ["authority", "names", "lifespan"] d
  return {
    authority := ← f.required "authority" text?
    names := ← f.required "names" (list? text?)
    lifespan := ← f.withDefault "lifespan" defaultLifespan text? }

/-- Reads where an authority is kept; nothing may be missing. -/
def AuthorityFiles.ofDocument? (dialect : Dialect) (d : Document) : Option AuthorityFiles := do
  let f ← fields? dialect ["type", "key", "cert"] d
  return {
    kind := ← f.required "type" (AuthorityKind.ofDocument? dialect)
    key := ← f.required "key" text?
    cert := ← f.required "cert" text? }

def GroupConfig.ofDocument? (dialect : Dialect) (d : Document) : Option GroupConfig := do
  let f ← fields? dialect ["subgroup_of"] d
  return { parent := ← f.withDefault "subgroup_of" none (optional? text?) }

/-- Reads an account; only its principal may not be missing. -/
def AccountConfig.ofDocument? (dialect : Dialect) (d : Document) : Option AccountConfig := do
  let f ← fields? dialect ["principal", "group", "disable_direct_auth", "limit_ip", "metadata"] d
  return {
    principal := ← f.required "principal" text?
    group := ← f.withDefault "group" none (optional? text?)
    disableDirectAuth := ← f.withDefault "disable_direct_auth" false bool?
    limitAddress := ← f.withDefault "limit_ip" false bool?
    metadata := ← f.withDefault "metadata" ∅ (map? text?) }

/-- The names of the fields of a grant, in order. -/
def Grant.fieldNames : List String :=
  ["group", "privilege", "scope", "authority", "is_host", "lifespan", "common_name",
    "allowed_names", "contents"]

/-- Reads a grant; what it needs is checked later, so anything may be missing. -/
def Grant.ofDocument? (dialect : Dialect) (d : Document) : Option Grant := do
  let f ← fields? dialect fieldNames d
  return {
    group := ← f.withDefault "group" "" text?
    privilege := ← f.withDefault "privilege" "" text?
    scope := ← f.withDefault "scope" none (optional? text?)
    authority := ← f.withDefault "authority" none (optional? text?)
    isHost := ← f.withDefault "is_host" none (optional? bool?)
    lifespan := ← f.withDefault "lifespan" none (optional? text?)
    commonName := ← f.withDefault "common_name" none (optional? text?)
    allowedNames := ← f.withDefault "allowed_names" none (optional? (list? text?))
    contents := ← f.withDefault "contents" none (optional? text?) }

/-- The names of the fields of a configuration, in order. -/
def Config.fieldNames : List String :=
  ["listen_addr", "authority_dir", "static_dir", "authentication_authority", "server_tls",
    "static_files", "authorities", "groups", "accounts", "grants"]

/-- Reads a configuration; a field that is missing has its default. -/
def Config.ofDocument? (dialect : Dialect) (d : Document) : Option Config := do
  let f ← fields? dialect fieldNames d
  return {
    listenAddress := ← f.withDefault "listen_addr" default.listenAddress text?
    authorityDir := ← f.withDefault "authority_dir" default.authorityDir text?
    staticDir := ← f.withDefault "static_dir" default.staticDir text?
    authenticationAuthority :=
      ← f.withDefault "authentication_authority" default.authenticationAuthority text?
    serverIdentity :=
      ← f.withDefault "server_tls" none (optional? (ServerIdentity.ofDocument? dialect))
    staticFiles := ← f.withDefault "static_files" [] (list? text?)
    authorities := ← f.withDefault "authorities" ∅ (map? (AuthorityFiles.ofDocument? dialect))
    groups := ← f.withDefault "groups" ∅ (map? (GroupConfig.ofDocument? dialect))
    accounts := ← f.withDefault "accounts" [] (list? (AccountConfig.ofDocument? dialect))
    grants := ← f.withDefault "grants" ∅ (map? (Grant.ofDocument? dialect)) }

/-! ### Writing -/

/-- A text that may be missing. -/
def Document.ofText? (s : Option String) : Document := (s.map Document.text).getD .null

def Document.ofTexts (l : List String) : Document := .list (l.map .text)

/-- A table of values of one kind. -/
def Document.ofMap (m : NameMap α) (step : α → Document) : Document :=
  .table (m.toList.map (fun e => (e.1, step e.2)))

def ServerIdentity.toDocument (s : ServerIdentity) : Document :=
  .table [("authority", .text s.authority), ("names", .ofTexts s.names),
    ("lifespan", .text s.lifespan)]

def AuthorityFiles.toDocument (a : AuthorityFiles) : Document :=
  .table [("type", .text a.kind.text), ("key", .text a.key), ("cert", .text a.cert)]

def GroupConfig.toDocument (g : GroupConfig) : Document :=
  .table [("subgroup_of", .ofText? g.parent)]

def AccountConfig.toDocument (a : AccountConfig) : Document :=
  .table [("principal", .text a.principal), ("group", .ofText? a.group),
    ("disable_direct_auth", .bool a.disableDirectAuth), ("limit_ip", .bool a.limitAddress),
    ("metadata", .ofMap a.metadata .text)]

/-- The document of a grant, with every field present. -/
def Grant.toDocument (g : Grant) : Document :=
  .table [("group", .text g.group), ("privilege", .text g.privilege),
    ("scope", .ofText? g.scope), ("authority", .ofText? g.authority),
    ("is_host", (g.isHost.map .bool).getD .null), ("lifespan", .ofText? g.lifespan),
    ("common_name", .ofText? g.commonName),
    ("allowed_names", (g.allowedNames.map .ofTexts).getD .null),
    ("contents", .ofText? g.contents)]

/-- The document of a configuration, with every field present. -/
def Config.toDocument (c : Config) : Document :=
  .table [("listen_addr", .text c.listenAddress), ("authority_dir", .text c.authorityDir),
    ("static_dir", .text c.staticDir),
    ("authentication_authority", .text c.authenticationAuthority),
    ("server_tls", (c.serverIdentity.map ServerIdentity.toDocument).getD .null),
    ("static_files", .ofTexts c.staticFiles),
    ("authorities", .ofMap c.authorities AuthorityFiles.toDocument),
    ("groups", .ofMap c.groups GroupConfig.toDocument),
    ("accounts", .list (c.accounts.map AccountConfig.toDocument)),
    ("grants", .ofMap c.grants Grant.toDocument)]

end CredentialServer
