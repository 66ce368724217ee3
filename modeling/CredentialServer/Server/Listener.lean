import CredentialServer.Config.Basic
import CredentialServer.Grants.Compile
import CredentialServer.Crypto.Ecdsa
import CredentialServer.X509.Anchor

/-!
# The server's own identity

A server shows its clients a certificate for a fresh key, made by one of its own authorities, and
checks theirs against another. Main statement: `establish_eq_ok` says who signs the certificate and
whom clients are checked against.
-/

namespace CredentialServer

/-- Why a server has no identity to show. -/
inductive ListenerError where
  | unknownAuthority (name : String)
  | notTls (name : String)
  | lifespan (value : String) (reason : Lifespan.ParseError)
  | issue (e : AuthorityError)
  /-- The certificates of clients cannot be checked against the authority. -/
  | unusableAnchor
  deriving DecidableEq, Repr

/-- What an error says, if it has a text of its own. -/
def ListenerError.message? : ListenerError → Option String
  | .unknownAuthority name => some s!"tls authority {name} is not configured"
  | .notTls name => some s!"authority {name} is not a tls authority"
  | .lifespan value reason =>
    some ("invalid server certificate lifespan " ++ quoted value ++ ": " ++ reason.message)
  | .issue e => e.message?.map (fun m => "failed to issue server certificate: " ++ m)
  | .unusableAnchor => none

/-- What a server needs to show its identity and to check that of its clients. -/
structure Listener where
  certificate : X509.Certificate
  /-- The secret number of the certificate's key. -/
  secret : Nat
  /-- Clients' certificates are checked against this one. -/
  anchor : X509.Certificate

namespace Listener

/-- The name that a server gives itself. -/
def commonName : String := "keyserver-autogen-tls"

/-- The protocols that a server speaks, the preferred one first. -/
def protocols : List String := ["h2", "http/1.1"]

/-- A configured authority that signs certificates. -/
def findTls (authorities : Authorities) (name : String) : Except ListenerError TlsAuthority :=
  match authorities.find? name with
  | none => .error (.unknownAuthority name)
  | some (.tls a) => .ok a
  | some _ => .error (.notTls name)

/-- A secret number for a key, from thirty-two random octets behind those of a serial number. -/
def secretOf (now : Moment) : Nat :=
  Bytes.toNat (now.octets 20 32) % (Curve.p256.order - 1) + 1

/-- The public half of a secret number. -/
def publicKeyOf (secret : Nat) : X509.PublicKeyInfo :=
  let c := Curve.p256
  let point := (c.affine? (c.multiply secret c.base)).getD (0, 0)
  .make (.withOid Oid.curveKey Oid.curveP256) (c.encode point.1 point.2)

def certify (issuer : TlsAuthority) (now : Moment) (identity : ServerIdentity) :
    Except ListenerError X509.Certificate :=
  match Lifespan.parse identity.lifespan with
  | .error e => .error (.lifespan identity.lifespan e)
  | .ok lifespan =>
    match issuer.issueFor now.signingClock (TlsAuthority.serialOf now.random)
        (publicKeyOf (secretOf now))
        { isHost := true, lifespan, commonName, names := identity.names } with
    | .ok certificate => .ok certificate
    | .error e => .error (.issue e)

/-- Prepares what a server shows. `authentication` names the authority of its clients. -/
def establish (authorities : Authorities) (authentication : String) (now : Moment)
    (identity : ServerIdentity) : Except ListenerError Listener := do
  let issuer ← findTls authorities identity.authority
  let trusted ← findTls authorities authentication
  let certificate ← certify issuer now identity
  unless trusted.certificate.isAnchor do throw .unusableAnchor
  return { certificate, secret := secretOf now, anchor := trusted.certificate }

/-- The configured authority signs the certificate, and clients are checked against the one that
authenticates requests. -/
theorem establish_eq_ok {authorities : Authorities} {authentication : String} {now : Moment}
    {identity : ServerIdentity} {l : Listener}
    (h : establish authorities authentication now identity = .ok l) :
    ∃ issuer trusted, findTls authorities identity.authority = .ok issuer ∧
      findTls authorities authentication = .ok trusted ∧
      certify issuer now identity = .ok l.certificate ∧ trusted.certificate.isAnchor = true ∧
      l.anchor = trusted.certificate := by
  simp only [establish, bind, Except.bind] at h
  split at h
  · cases h
  next issuer hi =>
  split at h
  · cases h
  next trusted ht =>
  split at h
  · cases h
  next certificate hc =>
  by_cases ha : trusted.certificate.isAnchor = true
  · rw [if_pos ha] at h
    cases h
    exact ⟨issuer, trusted, hi, ht, hc, ha, rfl⟩
  · rw [if_neg ha] at h
    cases h

end Listener

end CredentialServer
