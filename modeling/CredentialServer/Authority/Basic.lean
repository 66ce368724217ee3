import CredentialServer.Authority.Kind
import CredentialServer.Authority.Ssh
import CredentialServer.Authority.Tls

/-!
# Authorities

An authority holds a secret and shows a public half: two kinds sign with the secret, the third hands
it out. Main statement: `kind_load` (an authority is of the kind that was asked for).
-/

namespace CredentialServer

/-- A secret that is handed out, with its public half. -/
structure StaticAuthority where
  secret : Bytes
  published : Bytes

/-- An authority of one of the three kinds. -/
inductive Authority where
  | tls (a : TlsAuthority)
  | ssh (a : SshAuthority)
  | static (a : StaticAuthority)

/-- Stores a secret and its public half, neither of them empty. -/
def StaticAuthority.load (key cert : Bytes) : Except AuthorityError StaticAuthority :=
  if key.isEmpty then .error .emptySecret
  else if cert.isEmpty then .error .emptyPublic
  else .ok ⟨key, cert⟩

namespace Authority

def kind : Authority → AuthorityKind
  | .tls _ => .tls
  | .ssh _ => .ssh
  | .static _ => .static

/-- An authority that signs certificates. -/
def tls? : Authority → Option TlsAuthority
  | .tls a => some a
  | _ => none

/-- An authority that certifies keys in lines of text. -/
def ssh? : Authority → Option SshAuthority
  | .ssh a => some a
  | _ => none

/-- An authority that hands out its secret. -/
def static? : Authority → Option StaticAuthority
  | .static a => some a
  | _ => none

/-- The public half of an authority, as loaded. -/
def publicHalf : Authority → Bytes
  | .tls a => a.armoured
  | .ssh a => a.line
  | .static a => a.published

/-- Loads an authority of a kind from its secret and its public half. -/
def load (kind : AuthorityKind) (key cert : Bytes) : Except AuthorityError Authority :=
  match kind with
  | .tls => (TlsAuthority.load key cert).map .tls
  | .ssh => (SshAuthority.load key cert).map .ssh
  | .static => (StaticAuthority.load key cert).map .static

theorem kind_load {k : AuthorityKind} {key cert : Bytes} {a : Authority}
    (h : load k key cert = .ok a) : a.kind = k := by
  cases k <;> simp only [load] at h
  · cases hl : TlsAuthority.load key cert <;> rw [hl] at h <;> cases h; rfl
  · cases hl : SshAuthority.load key cert <;> rw [hl] at h <;> cases h; rfl
  · cases hl : StaticAuthority.load key cert <;> rw [hl] at h <;> cases h; rfl

end Authority

end CredentialServer
