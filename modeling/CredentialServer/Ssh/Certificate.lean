import CredentialServer.Ssh.PublicKey

/-!
# Certificates for keys in lines of text

A certificate binds a key to a list of principals for a window of seconds, and carries the key and
the signature of the authority. Main definitions: `signedPart` fixes what is signed, and `ofLine?`
reads a certificate from its line.
-/

namespace CredentialServer

namespace Ssh

/-- What an authority states about a key. -/
structure Statement where
  nonce : Bytes
  key : PublicKey
  serial : Nat
  isHost : Bool
  keyId : String
  principals : List String
  validAfter : Nat
  validBefore : Nat
  criticalOptions : Bytes
  extensions : Bytes
  signatureKey : PublicKey
  deriving DecidableEq, Repr

/-- A statement with its signature, which names its algorithm. -/
structure Certificate where
  statement : Statement
  algorithm : String
  signature : Bytes
  deriving DecidableEq, Repr

/-- The name of a kind of certificates, by the kind of the certified key. -/
def certificateKind (kind : String) : String :=
  match pieces '@' kind.toList with
  | [name, domain] => String.ofList name ++ "-cert-v01@" ++ String.ofList domain
  | _ => kind ++ "-cert-v01@openssh.com"

/-- The kinds of keys without a domain, whose certificates get one. -/
def plainKinds : List String :=
  ["ssh-rsa", "ssh-dss", "ssh-ed25519", "ecdsa-sha2-nistp256", "ecdsa-sha2-nistp384",
    "ecdsa-sha2-nistp521"]

/-- The kind of keys whose certificates have a given name. -/
def keyKind? (certificate : String) : Option String :=
  match pieces '@' certificate.toList with
  | [name, domain] =>
    let mark := "-cert-v01".toList
    if mark.isSuffixOf name then
      let stem := String.ofList (name.take (name.length - mark.length))
      if domain = "openssh.com".toList ∧ stem ∈ plainKinds then some stem
      else some (stem ++ "@" ++ String.ofList domain)
    else none
  | _ => none

namespace Statement

def signedPart (s : Statement) : Bytes :=
  encodeText (certificateKind s.key.kind) ++ encodeString s.nonce ++ s.key.fields ++
  Bytes.ofNat 8 s.serial ++ Bytes.ofNat 4 (if s.isHost then 2 else 1) ++ encodeText s.keyId ++
  encodeString (s.principals.flatMap encodeText) ++ Bytes.ofNat 8 s.validAfter ++
  Bytes.ofNat 8 s.validBefore ++ encodeString s.criticalOptions ++ encodeString s.extensions ++
  encodeString [] ++ encodeString s.signatureKey.encode

end Statement

namespace Certificate

def encode (c : Certificate) : Bytes :=
  c.statement.signedPart ++ encodeString (encodeText c.algorithm ++ encodeString c.signature)

def line (c : Certificate) : String :=
  certificateKind c.statement.key.kind ++ " " ++
    String.ofList (Base64.standard.encodePadded c.encode)

/-- Reads the rest of a certificate behind the certified key. -/
def readStatement? (nonce : Bytes) (key : PublicKey) (b : Bytes) : Option (Statement × Bytes) := do
  let (serial, b) ← readNat? 8 b
  let (type, b) ← readNat? 4 b
  guard (type = 1 ∨ type = 2)
  let (keyId, b) ← readText? b
  let (principals, b) ← readString? b
  let principals ← readTexts? principals.length principals
  let (validAfter, b) ← readNat? 8 b
  let (validBefore, b) ← readNat? 8 b
  let (criticalOptions, b) ← readString? b
  let (extensions, b) ← readString? b
  let (_, b) ← readString? b
  let (signatureKey, b) ← readString? b
  let signatureKey ← PublicKey.ofBytes? signatureKey
  return (⟨nonce, key, serial, type = 2, keyId, principals, validAfter, validBefore,
    criticalOptions, extensions, signatureKey⟩, b)

/-- The certificate that some octets are the encoding of. -/
def ofBytes? (b : Bytes) : Option Certificate := do
  let (name, b) ← readText? b
  let (nonce, b) ← readString? b
  let kind ← keyKind? name
  let (key, b) ← PublicKey.readFields? kind b
  let (statement, b) ← readStatement? nonce key b
  let (signature, b) ← readString? b
  guard (b = [])
  let (algorithm, signature) ← readText? signature
  let (signature, rest) ← readString? signature
  guard (rest = [])
  return ⟨statement, algorithm, signature⟩

/-- The certificate in a line, whose first word names its kind. -/
def ofLine? (line : List Char) : Option Certificate := do
  let (kind, s) ← PublicKey.readSegment? (trimEnd line)
  let (digits, _) ← PublicKey.readSegment? s
  let data ← Base64.standard.decodePadded? digits
  let c ← ofBytes? data
  guard ((certificateKind c.statement.key.kind).toList = kind)
  return c

/-- Whether the authority that a certificate names signed it. -/
def isSigned (c : Certificate) : Bool :=
  c.statement.signatureKey.verify c.algorithm c.statement.signedPart c.signature

end Certificate

end Ssh

end CredentialServer
