import CredentialServer.Authority.Basic
import CredentialServer.Directory.Basic
import CredentialServer.Grants.Error

/-!
# Privileges

A privilege is what one account holds under one grant, with all its parameters bound. Running one
takes the text of a request and gives a text; it may change whom the caller acts as and which
tokens there are. Main statements: `acting_invoke` and `registry_invoke` (only an impersonation
changes the one and only a new token the other).
-/

namespace CredentialServer

/-- What an account holds under a grant. Authorities are kept with their names. -/
inductive Privilege where
  | signTls (name : String) (authority : TlsAuthority) (subject : TlsAuthority.Subject)
  | signSsh (name : String) (authority : SshAuthority) (subject : SshAuthority.Subject)
  | bootstrapAccount (scope : Group) (lifespan : Span)
  | impersonate (scope : Group)
  | constructConfiguration (contents : String)
  | fetchKey (name : String) (authority : StaticAuthority)

/-- What operations change: whom they act as, and the tokens. -/
structure Session where
  acting : Account
  registry : Registry
  deriving DecidableEq, Repr

namespace Privilege

def kind : Privilege → PrivilegeKind
  | .signTls .. => .signTls
  | .signSsh .. => .signSsh
  | .bootstrapAccount .. => .bootstrapAccount
  | .impersonate .. => .impersonate
  | .constructConfiguration .. => .constructConfiguration
  | .fetchKey .. => .fetchKey

/-- A certificate for the key of a request, armoured. -/
def tlsAnswer (authority : TlsAuthority) (subject : TlsAuthority.Subject) (now : Moment)
    (body : String) : Except PrivilegeError String :=
  match authority.issue now.signingClock (TlsAuthority.serialOf now.random) body subject with
  | .ok certificate => .ok (TlsAuthority.armour certificate)
  | .error e => .error (.authority e)

/-- Certificates for the keys in a text, one line each. -/
def sshAnswer (authority : SshAuthority) (subject : SshAuthority.Subject) (now : Moment)
    (body : String) : Except PrivilegeError String :=
  match authority.issue now.signingClock now.random body subject with
  | .ok certificates => .ok (SshAuthority.lines certificates)
  | .error e => .error (.authority e)

/-- Runs a privilege on a request. An error changes nothing. -/
def invoke (directory : Directory) (p : Privilege) (now : Moment) (s : Session) (body : String) :
    Except PrivilegeError (String × Session) :=
  match p with
  | .signTls _ authority subject => (tlsAnswer authority subject now body).map (·, s)
  | .signSsh _ authority subject => (sshAnswer authority subject now body).map (·, s)
  | .bootstrapAccount scope lifespan =>
    if scope.hasMember body then
      match s.registry.grant now body lifespan with
      | .ok (token, registry) => .ok (token, { s with registry := registry })
      | .error e => .error (.token e)
    else .error (.outOfScope body)
  | .impersonate scope =>
    if scope.hasMember body then
      match directory.account body with
      | .ok account => .ok ("", { s with acting := account })
      | .error e => .error (.directory e)
    else .error (.outOfScope body)
  | .constructConfiguration contents =>
    if body = "" then .ok (contents, s) else .error (.unexpectedBody .constructConfiguration)
  | .fetchKey _ authority =>
    if body = "" then
      match Bytes.toText? authority.secret with
      | some text => .ok (text, s)
      | none => .error .binaryKey
    else .error (.unexpectedBody .fetchKey)

/-- Only an impersonation changes whom the caller acts as: the account in its scope that was asked
for. -/
theorem acting_invoke {directory : Directory} {p : Privilege} {now : Moment} {s s' : Session}
    {body answer : String} (h : p.invoke directory now s body = .ok (answer, s')) :
    s'.acting = s.acting ∨ ∃ scope, p = .impersonate scope ∧ scope.hasMember body = true ∧
      directory.account body = .ok s'.acting := by
  cases p with
  | signTls _ a subject =>
    simp only [invoke] at h
    cases hs : tlsAnswer a subject now body <;> rw [hs] at h <;> cases h; exact .inl rfl
  | signSsh _ a subject =>
    simp only [invoke] at h
    cases hs : sshAnswer a subject now body <;> rw [hs] at h <;> cases h; exact .inl rfl
  | bootstrapAccount scope lifespan =>
    simp only [invoke] at h
    split at h
    · split at h <;> cases h; exact .inl rfl
    · cases h
  | impersonate scope =>
    simp only [invoke] at h
    split at h
    · next hm =>
      split at h
      · next account ha => cases h; exact .inr ⟨scope, rfl, hm, ha⟩
      · cases h
    · cases h
  | constructConfiguration contents =>
    simp only [invoke] at h
    split at h <;> cases h; exact .inl rfl
  | fetchKey _ a =>
    simp only [invoke] at h
    split at h
    · split at h <;> cases h; exact .inl rfl
    · cases h

/-- Only a new token changes the registry: one for the principal in scope that was asked for. -/
theorem registry_invoke {directory : Directory} {p : Privilege} {now : Moment} {s s' : Session}
    {body answer : String} (h : p.invoke directory now s body = .ok (answer, s')) :
    s'.registry = s.registry ∨ ∃ scope lifespan, p = .bootstrapAccount scope lifespan ∧
      scope.hasMember body = true ∧
      s.registry.grant now body lifespan = .ok (answer, s'.registry) := by
  cases p with
  | signTls _ a subject =>
    simp only [invoke] at h
    cases hs : tlsAnswer a subject now body <;> rw [hs] at h <;> cases h; exact .inl rfl
  | signSsh _ a subject =>
    simp only [invoke] at h
    cases hs : sshAnswer a subject now body <;> rw [hs] at h <;> cases h; exact .inl rfl
  | bootstrapAccount scope lifespan =>
    simp only [invoke] at h
    split at h
    · next hm =>
      split at h
      · next token registry hg => cases h; exact .inr ⟨scope, lifespan, rfl, hm, hg⟩
      · cases h
    · cases h
  | impersonate scope =>
    simp only [invoke] at h
    split at h
    · split at h <;> cases h; exact .inl rfl
    · cases h
  | constructConfiguration contents =>
    simp only [invoke] at h
    split at h <;> cases h; exact .inl rfl
  | fetchKey _ a =>
    simp only [invoke] at h
    split at h
    · split at h <;> cases h; exact .inl rfl
    · cases h

end Privilege

end CredentialServer
