import CredentialServer.Authority.Error
import CredentialServer.KeyFile.Rsa
import CredentialServer.X509.Request

/-!
# Authorities that sign certificates

A `TlsAuthority` holds an RSA key and the certificate for it. It makes certificates for the keys of
requests: everything but the key comes from the caller. It also tells whose certificate it made.
Main statements: `issue_eq_ok_iff` says when a certificate is made and what it states, and
`verifyClient_eq_ok_iff` when a certificate is trusted and as whom.
-/

namespace CredentialServer

open X509

/-- An RSA key with its certificate, as loaded. -/
structure TlsAuthority where
  key : Rsa.PrivateKey
  certificate : Certificate
  /-- The name that issued certificates carry as their issuer. -/
  issuer : Name
  /-- The certificate's encoding. -/
  der : Bytes
  /-- The text that the certificate was loaded from. -/
  armoured : Bytes

namespace TlsAuthority

/-- The subject of the authority's certificate, for people. -/
def subjectText (a : TlsAuthority) : String :=
  (Name.text? a.certificate.contents.subject).getD "<X509Error: Invalid X.509 name>"

/-- Whether a constraint on names can be carried over; kinds that are not are left out. -/
def isConstraint : GeneralName → Bool
  | .directory n => (Name.carried? n).isSome
  | _ => true

/-- Whether an extension that may be missing, but not stand twice, passes a test. -/
def passes (c : Certificate) (oid : Oid) (test : Bytes → Bool) : Bool :=
  match c.find oid with
  | .missing => true
  | .repeated => false
  | .one e => test e.value

/-- Whether what a certificate says of its holder can be carried over: names, usages and a path
length below 256. -/
def isCarried (c : Certificate) : Bool :=
  passes c Oid.basicConstraints (fun v =>
    match basicConstraints? v with
    | some b => !b.authority || (b.pathLength.getD 0) < 256
    | none => false) &&
  passes c Oid.subjectAlternativeName (fun v =>
    match alternativeNames? v with
    | some l => l.all GeneralName.isCarried
    | none => false) &&
  passes c Oid.keyUsage (fun v =>
    ((Der.readTag? .any Der.bitString v).bind (fun r => Der.bits? r.1)).isSome) &&
  passes c Oid.extendedKeyUsage (fun v => (usages? v).isSome) &&
  passes c Oid.nameConstraints (fun v => ((nameConstraints? v).map (·.all isConstraint)).getD false)

/-- Loads an authority from its private key and its certificate, both armoured. The key must be the
certificate's and strong enough to sign. -/
def load (key cert : Bytes) : Except AuthorityError TlsAuthority := do
  let some key := (Bytes.toText? key).bind KeyFile.rsa? | throw .malformedKey
  let some block := Pem.scan? cert | throw .malformedCertificate
  let some certificate := Certificate.ofDer? block.content | throw .malformedCertificate
  let some published := certificate.contents.publicKey.rsa? | throw .certificateNotRsa
  unless published.isSound do throw .certificateNotRsa
  unless published = key.toPublic do throw .keyMismatch
  unless key.isStrong do throw .malformedKey
  let some text := Bytes.toText? cert | throw .malformedCertificate
  let some block' := Pem.find? text.toList | throw .malformedCertificate
  let some certificate' := Certificate.ofDer? block'.content | throw .malformedCertificate
  let some issuer := Name.carried? certificate'.contents.subject | throw .malformedCertificate
  unless isCarried certificate' do throw .malformedCertificate
  return { key, certificate, issuer, der := block.content, armoured := cert }

/-! ### Making certificates -/

/-- The key of an armoured request from which a certificate can be made. -/
def requestedKey (text : String) : Except AuthorityError PublicKeyInfo := do
  let some block := Pem.scan? (Bytes.ofText text) | throw .malformedRequest
  unless block.label = "CERTIFICATE REQUEST".toList do
    throw (.unexpectedBlock (String.ofList block.label))
  let some request := Request.ofDer? block.content | throw .malformedRequest
  unless request.isProved do throw .malformedRequest
  let some block' := Pem.find? text.toList | throw .malformedRequest
  let some request' := Request.ofDer? block'.content | throw .malformedRequest
  let some key := request'.accepted? | throw .malformedRequest
  return key

/-- The last instant that a certificate can name. -/
def lastInstant : Instant := ⟨253402300799999999999⟩

/-- The identifier of a key: the first twenty octets of a digest of its encoding. -/
def keyIdentifier (k : PublicKeyInfo) : Bytes := (sha256 k.raw).take 20

/-- The identifier of the authority's key: the one in its certificate, or else its digest. -/
def identifier (a : TlsAuthority) : Bytes :=
  let stated := a.certificate.contents.extensions.findSome? (fun e =>
    if e.oid = Oid.subjectKeyIdentifier then keyIdentifier? e.value else none)
  stated.getD (keyIdentifier (PublicKeyInfo.ofRsa a.key.toPublic))

/-- A key usage of signing only, in two octets. -/
def signingUsage : Bytes := Der.encode Der.bitString [7, 0x80, 0]

/-- The constraint that a certificate signs no others, spelled out. -/
def noAuthority : Bytes := Der.encode Der.sequence (Der.encode Der.boolean [0])

def extensions (a : TlsAuthority) (key : PublicKeyInfo) (isHost : Bool)
    (names : List GeneralName) : List Extension :=
  [⟨Oid.authorityKeyIdentifier, false,
    Der.encode Der.sequence (Der.encode (Der.implicitTag 0) a.identifier)⟩] ++
  (if names.isEmpty then []
    else [⟨Oid.subjectAlternativeName, false, encodeAlternativeNames names⟩]) ++
  [⟨Oid.keyUsage, true, signingUsage⟩,
    ⟨Oid.extendedKeyUsage, false, encodeUsages
      (if isHost then [Oid.clientUsage, Oid.serverUsage] else [Oid.clientUsage])⟩,
    ⟨Oid.subjectKeyIdentifier, false, Der.encode Der.octetString (keyIdentifier key)⟩,
    ⟨Oid.basicConstraints, true, noAuthority⟩]

/-- What the caller decides about a certificate. -/
structure Subject where
  isHost : Bool
  lifespan : Span
  commonName : String
  names : List String
  deriving DecidableEq, Repr

/-- The statement that the authority signs: names, usages and time come from the caller and the
clock, and only the key from the request. -/
def statement (a : TlsAuthority) (now : Instant) (serial : Nat) (key : PublicKeyInfo)
    (subject : Subject) (names : List GeneralName) : Certificate.Contents where
  version := 3
  serial := Der.naturalContent serial
  algorithm := .withNull Oid.rsaSha256
  issuer := a.issuer
  notBefore := now.second
  notAfter := (now + subject.lifespan).second
  subject := Name.ofCommonName subject.commonName
  publicKey := key
  extensions := a.extensions key subject.isHost names

def certify (a : TlsAuthority) (contents : Certificate.Contents) :
    Except AuthorityError Certificate :=
  match a.key.sign .sha256 contents.encode with
  | some signature => .ok ⟨contents, contents.encode, .withNull Oid.rsaSha256, signature⟩
  | none => .error .signing

/-- The statement for a key, if it can be written: the end of its time must be a date of four
digits, and every name an address or ASCII. -/
def prepare (a : TlsAuthority) (now : Instant) (serial : Nat) (key : PublicKeyInfo)
    (subject : Subject) : Except AuthorityError Certificate.Contents :=
  if lastInstant < now + subject.lifespan then .error .lifespanOutOfRange
  else match subject.names.mapM GeneralName.ofHost? with
    | none => .error .signing
    | some names => .ok (a.statement now serial key subject names)

/-- Makes a certificate for a key. -/
def issueFor (a : TlsAuthority) (now : Instant) (serial : Nat) (key : PublicKeyInfo)
    (subject : Subject) : Except AuthorityError Certificate :=
  match a.prepare now serial key subject with
  | .error e => .error e
  | .ok contents => a.certify contents

/-- Makes a certificate for the key of an armoured request. -/
def issue (a : TlsAuthority) (now : Instant) (serial : Nat) (request : String)
    (subject : Subject) : Except AuthorityError Certificate :=
  match requestedKey request with
  | .error e => .error e
  | .ok key => a.issueFor now serial key subject

def armour (c : Certificate) : String := Pem.write "CERTIFICATE" c.encode

/-- The serial number from twenty random octets, whose top bit is dropped. -/
def serialOf (random : Nat → UInt8) : Nat :=
  Bytes.toNat ((List.range 20).map random) % (1 <<< 159)

/-! ### Trusting certificates -/

/-- Whether a certificate may be used by clients; an unreadable statement about it is no answer. -/
def clientUse? (c : Certificate) : Option Bool :=
  match c.find Oid.extendedKeyUsage with
  | .missing => some false
  | .repeated => none
  | .one e => (usages? e.value).map (fun l => l.contains Oid.clientUsage || l.contains Oid.anyUsage)

/-- The common name in the first certificate of a chain, if this authority signed it, it is valid
now, and it may be used by clients. -/
def verifyClient (a : TlsAuthority) (now : Instant) (chain : List Bytes) :
    Except AuthorityError String :=
  match chain with
  | [] => .error .missingClientCertificate
  | leaf :: _ =>
    match Certificate.ofDer? leaf with
    | none => .error .unverifiedClientCertificate
    | some c =>
      if c.isSignedBy a.certificate.contents.publicKey = false then
        .error .unverifiedClientCertificate
      else if c.isValidAt now = false then .error .outsideValidity
      else match clientUse? c with
        | none => .error .unverifiedClientCertificate
        | some false => .error .notForClients
        | some true =>
          match Name.commonName? c.contents.subject with
          | none => .error .noCommonName
          | some name => .ok name

theorem verifyClient_eq_ok_iff {a : TlsAuthority} {now : Instant} {chain : List Bytes}
    {name : String} : a.verifyClient now chain = .ok name ↔
      ∃ leaf rest c, chain = leaf :: rest ∧ Certificate.ofDer? leaf = some c ∧
        c.isSignedBy a.certificate.contents.publicKey = true ∧ c.isValidAt now = true ∧
        clientUse? c = some true ∧ Name.commonName? c.contents.subject = some name := by
  cases chain with
  | nil => simp [verifyClient]
  | cons leaf rest =>
    simp only [verifyClient, List.cons.injEq]
    cases hc : Certificate.ofDer? leaf with
    | none => simp [hc]
    | some c =>
      cases hs : c.isSignedBy a.certificate.contents.publicKey with
      | false => simp [hc, hs]
      | true =>
        cases hv : c.isValidAt now with
        | false => simp [hc, hs, hv]
        | true =>
          rcases hu : clientUse? c with _ | _ | _
          · simp [hc, hs, hv, hu]
          · simp [hc, hs, hv, hu]
          · cases hn : Name.commonName? c.contents.subject <;> simp [hc, hs, hv, hu, hn]

theorem issue_eq_ok_iff {a : TlsAuthority} {now : Instant} {serial : Nat} {request : String}
    {subject : Subject} {c : Certificate} : a.issue now serial request subject = .ok c ↔
      ∃ key names, requestedKey request = .ok key ∧ now + subject.lifespan ≤ lastInstant ∧
        subject.names.mapM GeneralName.ofHost? = some names ∧
        a.certify (a.statement now serial key subject names) = .ok c := by
  simp only [issue]
  cases hk : requestedKey request with
  | error e => simp
  | ok key =>
    simp only [issueFor, prepare]
    by_cases hl : lastInstant < now + subject.lifespan
    · rw [if_pos hl]
      have : ¬ now + subject.lifespan ≤ lastInstant := fun h => by
        rw [Instant.lt_def] at hl; rw [Instant.le_def] at h; omega
      simp [this]
    · rw [if_neg hl]
      have : now + subject.lifespan ≤ lastInstant := by
        rw [Instant.lt_def] at hl; rw [Instant.le_def]; omega
      cases hn : subject.names.mapM GeneralName.ofHost? with
      | none => simp
      | some names => simp [this]

end TlsAuthority

end CredentialServer
