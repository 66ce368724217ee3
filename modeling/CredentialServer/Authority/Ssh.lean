import CredentialServer.Authority.Error
import CredentialServer.Ssh.Certificate
import CredentialServer.Ssh.PrivateKey
import CredentialServer.Time.Instant

/-!
# Authorities that certify keys in lines of text

An `SshAuthority` holds a private key and the line of its public half. It certifies each of the
leading keys of a text for one list of principals and one window of time. Main statements:
`leadingKeys_append` (a text without a bad line is read piece by piece) and `keys_certifyAll` (keys
are certified in order).
-/

namespace CredentialServer

open Ssh

/-- The key that an authority signs with. -/
inductive SigningKey where
  | rsa (key : Rsa.PrivateKey)
  | ed25519 (seed : Bytes) (publicKey : PublicKey)
  | ecdsa (curve : CurveName) (secret : Nat) (publicKey : PublicKey)
  /-- A key of a kind that signs nothing here. -/
  | inert (publicKey : PublicKey)
  deriving DecidableEq

namespace SigningKey

def publicKey : SigningKey → PublicKey
  | .rsa key => .ofRsa key.toPublic
  | .ed25519 _ k | .ecdsa _ _ k | .inert k => k

/-- The signature of a message, with the name of its algorithm. RSA keys of 2048 bits and more,
counted in whole octets, keys on the smallest curve and Edwards keys sign. -/
def sign (k : SigningKey) (message : Bytes) : Option (String × Bytes) :=
  match k with
  | .rsa key =>
    if 8 * key.toPublic.length < 2048 then none
    else (key.sign .sha512 message).map (fun s => ("rsa-sha2-512", s))
  | .ed25519 seed k => some (k.kind, Edwards.sign seed message)
  | .ecdsa .p256 secret k =>
    (Ecdsa.sign .p256 .sha256 secret message).map (fun (r, s) =>
      (k.kind, encodeString (signedOctets r) ++ encodeString (signedOctets s)))
  | .ecdsa .. | .inert _ => none

end SigningKey

/-- A signing key with the line of its public half, as loaded. -/
structure SshAuthority where
  key : SigningKey
  line : Bytes

namespace SshAuthority

/-- The key in a private key file. The numbers of an RSA key must be positive and fit together. -/
def keyOfFile (content : KeyFileContent) : Except AuthorityError SigningKey :=
  match content with
  | .locked => .error .encryptedKey
  | .unlocked _ (.rsa n e d p q) =>
    match positive? n, positive? e, positive? d, positive? p, positive? q with
    | some n, some e, some d, some p, some q =>
      let key : Rsa.PrivateKey := ⟨n, e, d, p, q⟩
      if key.isSound then .ok (.rsa key) else .error .malformedKey
    | _, _, _, _, _ => .error .nonPositiveKeyComponent
  | .unlocked k (.ed25519 seed) => .ok (.ed25519 seed k)
  | .unlocked k (.ecdsa curve _ secret) => .ok (.ecdsa curve (Bytes.toNat secret) k)
  | .unlocked k (.inert _) => .ok (.inert k)

/-- The key in a text: a private key file, or else an RSA key in one of its own forms. -/
def loadKey (key : Bytes) : Except AuthorityError SigningKey :=
  match Bytes.toText? key with
  | none => .error .malformedKey
  | some text =>
    match PrivateKey.ofText? text with
    | some content => keyOfFile content
    | none =>
      match KeyFile.rsa? text with
      | some key => .ok (.rsa key)
      | none => .error .malformedKey

/-- Loads an authority from its private key and the line of its public half. -/
def load (key line : Bytes) : Except AuthorityError SshAuthority :=
  match loadKey key with
  | .error e => .error e
  | .ok key =>
    match (Bytes.toText? line).bind (fun text => PublicKey.ofLine? (trim text.toList)) with
    | none => .error .malformedCertificate
    | some published =>
      if published = key.publicKey then .ok ⟨key, line⟩ else .error .keyMismatch

/-! ### Keys in a text -/

/-- What a line of a text of keys is. -/
inductive Line where
  | blank
  | key (k : PublicKey)
  | bad
  deriving DecidableEq

/-- What a line is, without the blanks at its ends: a line that starts with a number sign is a
comment. -/
def Line.of (line : List Char) : Line :=
  let line := trim line
  match line with
  | [] => .blank
  | '#' :: _ => .blank
  | _ =>
    match PublicKey.ofLine? line with
    | some k => .key k
    | none => .bad

/-- The keys of the lines before the first bad one. -/
def keysOf : List Line → List PublicKey
  | [] => []
  | .blank :: rest => keysOf rest
  | .key k :: rest => k :: keysOf rest
  | .bad :: _ => []

def leadingKeys (text : String) : List PublicKey :=
  keysOf ((pieces '\n' text.toList).map Line.of)

theorem keysOf_append {a : List Line} (h : Line.bad ∉ a) (b : List Line) :
    keysOf (a ++ b) = keysOf a ++ keysOf b := by
  induction a with
  | nil => rfl
  | cons x a ih =>
    simp only [List.mem_cons, not_or] at h
    cases x with
    | blank => exact ih h.2
    | key k => simp [keysOf, ih h.2]
    | bad => exact absurd rfl h.1

theorem keysOf_bad (a b : List Line) : keysOf (a ++ .bad :: b) = keysOf a := by
  induction a with
  | nil => rfl
  | cons x a ih => cases x <;> simp [keysOf, ih]

/-- The keys of a text without bad lines come before those of what follows it on further lines. -/
theorem leadingKeys_append {a : String} (h : Line.bad ∉ (pieces '\n' a.toList).map Line.of)
    (b : String) : leadingKeys (a ++ "\n" ++ b) = leadingKeys a ++ leadingKeys b := by
  have hp : pieces '\n' (a ++ "\n" ++ b).toList =
      pieces '\n' a.toList ++ pieces '\n' b.toList := by
    rw [String.toList_append, String.toList_append, List.append_assoc]
    exact pieces_append_cons '\n' a.toList b.toList
  rw [leadingKeys, hp, List.map_append, keysOf_append h]
  rfl

/-! ### Certifying -/

/-- What the caller decides about certificates. -/
structure Subject where
  isHost : Bool
  lifespan : Span
  keyId : String
  principals : List String
  deriving DecidableEq, Repr

def statement (a : SshAuthority) (subject : Subject) (validAfter : Nat) (nonce : Bytes)
    (serial : Nat) (key : PublicKey) : Statement where
  nonce := nonce
  key := key
  serial := serial
  isHost := subject.isHost
  keyId := subject.keyId
  principals := subject.principals
  validAfter := validAfter
  validBefore := validAfter + subject.lifespan.seconds
  criticalOptions := []
  extensions := []
  signatureKey := a.key.publicKey

/-- Certifies a key. A certificate names at least one principal and ends before 2^63 seconds. -/
def certify (a : SshAuthority) (s : Statement) : Except AuthorityError Certificate :=
  if s.principals.isEmpty ∨ UInt64.size / 2 ≤ s.validBefore then .error .signing
  else match a.key.sign s.signedPart with
    | some (algorithm, signature) => .ok ⟨s, algorithm, signature⟩
    | none => .error .signing

/-- Certifies keys one after the other, each with its own sixteen random octets and its own serial
number of eight. -/
def certifyAll (a : SshAuthority) (subject : Subject) (validAfter : Nat) :
    (Nat → UInt8) → List PublicKey → Except AuthorityError (List Certificate)
  | _, [] => .ok []
  | random, key :: rest =>
    let nonce := (List.range 16).map random
    let serial := Bytes.toNat ((List.range 8).map (fun i => random (16 + i)))
    match a.certify (a.statement subject validAfter nonce serial key) with
    | .error e => .error e
    | .ok c =>
      match a.certifyAll subject validAfter (fun i => random (24 + i)) rest with
      | .error e => .error e
      | .ok cs => .ok (c :: cs)

/-- The certificates for the keys that a text starts with. -/
def issue (a : SshAuthority) (now : Instant) (random : Nat → UInt8) (text : String)
    (subject : Subject) : Except AuthorityError (List Certificate) :=
  let keys := leadingKeys text
  if keys.isEmpty then .error .noKeysFound
  else if subject.lifespan.toNanos < nanosPerSecond then .error .lifespanTooShort
  else if now.nanos < 0 then .error .signing
  else if UInt64.size ≤ now.second.toNat + subject.lifespan.seconds then .error .lifespanOutOfRange
  else a.certifyAll subject now.second.toNat random keys

/-- Certificates as text, one line each. -/
def lines (l : List Certificate) : String := String.join (l.map (fun c => c.line ++ "\n"))

theorem certify_eq_ok {a : SshAuthority} {s : Statement} {c : Certificate}
    (h : a.certify s = .ok c) : c.statement = s := by
  simp only [certify] at h
  split at h
  · cases h
  · split at h
    · cases h; rfl
    · cases h

theorem certifyAll_cons_eq_ok {a : SshAuthority} {subject : Subject} {validAfter : Nat}
    {random : Nat → UInt8} {key : PublicKey} {keys : List PublicKey} {cs : List Certificate}
    (h : a.certifyAll subject validAfter random (key :: keys) = .ok cs) :
    ∃ c rest, a.certify (a.statement subject validAfter ((List.range 16).map random)
        (Bytes.toNat ((List.range 8).map (fun i => random (16 + i)))) key) = .ok c ∧
      a.certifyAll subject validAfter (fun i => random (24 + i)) keys = .ok rest ∧
      cs = c :: rest := by
  simp only [certifyAll] at h
  split at h
  · cases h
  · next c hc =>
    split at h
    · cases h
    · next rest hrest =>
      cases h
      exact ⟨c, rest, hc, hrest, rfl⟩

theorem keys_certifyAll {a : SshAuthority} {subject : Subject} {validAfter : Nat}
    {random : Nat → UInt8} {keys : List PublicKey} {cs : List Certificate}
    (h : a.certifyAll subject validAfter random keys = .ok cs) :
    cs.map (·.statement.key) = keys := by
  induction keys generalizing random cs with
  | nil => cases h; rfl
  | cons key keys ih =>
    obtain ⟨c, rest, hc, hrest, rfl⟩ := certifyAll_cons_eq_ok h
    rw [List.map_cons, ih hrest, certify_eq_ok hc]
    rfl

end SshAuthority

end CredentialServer
