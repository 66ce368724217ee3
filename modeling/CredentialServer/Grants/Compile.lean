import CredentialServer.Grants.Privilege

/-!
# Compiling grants

A configured grant becomes one privilege for every member of its group. What does not depend on the
member is a `Blueprint`: authority and lifespan are found and checked once, and the templates are
expanded for each member. Main statements: `checkParameters_eq_ok_iff` says which parameters a
grant may have, and `names_compileGrants` that every grant of the configuration is compiled.
-/

namespace CredentialServer

/-- Who holds which privilege under a grant. -/
structure BoundGrant where
  group : String
  holders : NameMap Privilege

/-- The authorities of a server by name. -/
abbrev Authorities := NameMap Authority

/-! ### Parameters -/

/-- Whether a text is given and not empty. -/
def isGiven (s : Option String) : Bool := s.any (fun s => !s.isEmpty)

/-- Whether a grant has a parameter. An empty text counts as none. -/
def Grant.has (g : Grant) : Parameter → Bool
  | .scope => isGiven g.scope
  | .authority => isGiven g.authority
  | .isHost => g.isHost.isSome
  | .lifespan => isGiven g.lifespan
  | .commonName => isGiven g.commonName
  | .allowedNames => g.allowedNames.isSome
  | .contents => isGiven g.contents

namespace PrivilegeKind

/-- The parameters of a grant that a kind does not take. -/
def extraneous (k : PrivilegeKind) (g : Grant) : List Parameter :=
  Parameter.all.filter (fun p => g.has p && !(k.required.contains p) && !(k.optional.contains p))

/-- The parameters that a kind needs and a grant does not have. -/
def missing (k : PrivilegeKind) (g : Grant) : List Parameter :=
  k.required.filter (fun p => !g.has p)

/-- Whether a grant of certificates for keys in a text names nobody. -/
def lacksPrincipals (k : PrivilegeKind) (g : Grant) : Bool :=
  k == .signSsh && g.allowedNames == some []

/-- Checks that a grant has the parameters that its kind takes. -/
def checkParameters (k : PrivilegeKind) (g : Grant) : Except CompileError Unit :=
  if !(k.extraneous g).isEmpty then .error (.extraneous k (k.extraneous g))
  else if !(k.missing g).isEmpty then .error (.missing k (k.missing g))
  else if k.lacksPrincipals g then .error .noPrincipals
  else .ok ()

/-- A grant has what its kind needs, nothing that its kind does not take, and names somebody. -/
theorem checkParameters_eq_ok_iff (k : PrivilegeKind) (g : Grant) :
    k.checkParameters g = .ok () ↔
      (∀ p, g.has p = true → p ∈ k.required ∨ p ∈ k.optional) ∧
      (∀ p ∈ k.required, g.has p = true) ∧ k.lacksPrincipals g = false := by
  have hx : (k.extraneous g).isEmpty = true ↔
      ∀ p, g.has p = true → p ∈ k.required ∨ p ∈ k.optional := by
    simp only [extraneous, List.isEmpty_iff, List.filter_eq_nil_iff, Bool.and_eq_true,
      Bool.not_eq_true', List.contains_eq_mem, decide_eq_false_iff_not]
    constructor
    · intro h p hp
      by_cases hr : p ∈ k.required
      · exact .inl hr
      · by_cases ho : p ∈ k.optional
        · exact .inr ho
        · exact absurd ⟨⟨hp, hr⟩, ho⟩ (h p (Parameter.mem_all p))
    · rintro h p - ⟨⟨hp, hr⟩, ho⟩
      exact (h p hp).elim hr ho
  have hm : (k.missing g).isEmpty = true ↔ ∀ p ∈ k.required, g.has p = true := by
    simp only [missing, List.isEmpty_iff, List.filter_eq_nil_iff, Bool.not_eq_true',
      Bool.not_eq_false]
  rw [checkParameters, ← hx, ← hm]
  cases (k.extraneous g).isEmpty <;> cases (k.missing g).isEmpty <;>
    cases k.lacksPrincipals g <;> simp

end PrivilegeKind

/-! ### What all members share -/

/-- A privilege whose templates are not expanded and whose scope is not looked up. -/
inductive Blueprint where
  | signTls (name : String) (authority : TlsAuthority) (isHost : Bool) (lifespan : Span)
      (commonName : String) (names : List String)
  | signSsh (name : String) (authority : SshAuthority) (isHost : Bool) (lifespan : Span)
      (keyId : String) (principals : List String)
  | bootstrapAccount (scope : String) (lifespan : Span)
  | impersonate (scope : String)
  | constructConfiguration (contents : String)
  | fetchKey (name : String) (authority : StaticAuthority)

/-- A lifespan of some length. -/
def positiveLifespan (value : String) : Except CompileError Span :=
  match Lifespan.parse value with
  | .error e => .error (.invalidLifespan value e)
  | .ok span => if span.isZero then .error (.nonPositiveLifespan value) else .ok span

namespace Authorities

/-- The authority of a name for a kind of privilege, whose `pick` takes those of the kind that it
needs. -/
def forKind (authorities : Authorities) (k : PrivilegeKind) (expected : AuthorityKind)
    (pick : Authority → Option α) (name : String) : Except CompileError α :=
  match authorities.find? name with
  | none => .error (.unknownAuthority name)
  | some a =>
    match pick a with
    | some a => .ok a
    | none => .error (.authorityMismatch k name expected a.kind)

end Authorities

namespace Blueprint

/-- The blueprint of a grant of a kind whose parameters were checked. -/
def ofGrant (authorities : Authorities) (k : PrivilegeKind) (g : Grant) :
    Except CompileError Blueprint :=
  let name := g.authority.getD ""
  let lifespan := g.lifespan.getD ""
  match k with
  | .signTls => do
    let a ← authorities.forKind k .tls Authority.tls? name
    let span ← positiveLifespan lifespan
    return .signTls name a (g.isHost.getD false) span (g.commonName.getD "")
      (g.allowedNames.getD [])
  | .signSsh => do
    let a ← authorities.forKind k .ssh Authority.ssh? name
    let span ← positiveLifespan lifespan
    return .signSsh name a (g.isHost.getD false) span (g.commonName.getD "")
      (g.allowedNames.getD [])
  | .bootstrapAccount => do
    let span ← positiveLifespan lifespan
    return .bootstrapAccount (g.scope.getD "") span
  | .impersonate => return .impersonate (g.scope.getD "")
  | .constructConfiguration => return .constructConfiguration (g.contents.getD "")
  | .fetchKey => do
    let a ← authorities.forKind k .static Authority.static? name
    return .fetchKey name a

/-- A template with the values of an account. -/
def expand (vars : Variables) (s : String) : Except CompileError String :=
  (substitute vars s).mapError .template

def expandAll (vars : Variables) (l : List String) : Except CompileError (List String) :=
  (substituteAll vars l).mapError .template

def scopeOf (directory : Directory) (name : String) : Except CompileError Group :=
  (directory.group name).mapError .directory

/-- The privilege of an account with these values. -/
def bind (directory : Directory) (vars : Variables) :
    Blueprint → Except CompileError Privilege
  | .signTls name a isHost lifespan commonName names => do
    let commonName ← expand vars commonName
    let names ← expandAll vars names
    return .signTls name a { isHost, lifespan, commonName, names }
  | .signSsh name a isHost lifespan keyId principals => do
    let keyId ← expand vars keyId
    let principals ← expandAll vars principals
    return .signSsh name a { isHost, lifespan, keyId, principals }
  | .bootstrapAccount scope lifespan => do
    let group ← scopeOf directory scope
    return .bootstrapAccount group lifespan
  | .impersonate scope => do
    let group ← scopeOf directory scope
    return .impersonate group
  | .constructConfiguration contents => do
    let contents ← expand vars contents
    return .constructConfiguration contents
  | .fetchKey name a => return .fetchKey name a

/-- The privilege of a principal, with the values of its account. -/
def bindFor (directory : Directory) (b : Blueprint) (principal : String) :
    Except CompileError Privilege :=
  match directory.account principal with
  | .error e => .error (.directory e)
  | .ok account => b.bind directory account.metadata

end Blueprint

/-! ### Whole grants -/

def compileGrant (directory : Directory) (authorities : Authorities) (g : Grant) :
    Except CompileError BoundGrant :=
  match PrivilegeKind.ofText? g.privilege with
  | none => .error (.unknownKind g.privilege)
  | some k => do
    k.checkParameters g
    let group ← (directory.group g.group).mapError .directory
    let blueprint ← Blueprint.ofGrant authorities k g
    let holders ← group.members.mapM (fun principal _ => blueprint.bindFor directory principal)
    return ⟨g.group, holders⟩

/-- Compiles grants; the first bad one, in order of name, is the error. -/
def compileGrants (directory : Directory) (authorities : Authorities) (grants : NameMap Grant) :
    Except GrantError (NameMap BoundGrant) :=
  grants.mapM (fun api g => (compileGrant directory authorities g).mapError (⟨api, ·⟩))

theorem names_compileGrants {directory : Directory} {authorities : Authorities}
    {grants : NameMap Grant} {compiled : NameMap BoundGrant}
    (h : compileGrants directory authorities grants = .ok compiled) :
    compiled.names = grants.names := NameMap.names_mapM h

end CredentialServer
