import CredentialServer.Crypto.Ecdsa
import CredentialServer.Crypto.Edwards
import CredentialServer.Crypto.Rsa
import CredentialServer.Der.Oid

/-!
# Public keys and the signatures they verify

A public key is a string of bits under the identifier of an algorithm; a signature names an
algorithm of its own, which says how the bits are read. Main definition: `PublicKeyInfo.verify`
gives the signature algorithms that are accepted.
-/

namespace CredentialServer

namespace X509

/-- The name of an algorithm, with parameters that depend on it. -/
structure AlgorithmId where
  oid : Oid
  parameters : Option Der.Element
  deriving DecidableEq, Repr

namespace AlgorithmId

def encode (a : AlgorithmId) : Bytes :=
  Der.encode Der.sequence (a.oid.encode ++ (a.parameters.map (·.raw)).getD [])

/-- The algorithm that these octets are the content of. -/
def ofContent? (lengths : Der.Lengths) (content : Bytes) : Option AlgorithmId := do
  let (oid, rest) ← Der.readTag? lengths Der.objectIdentifier content
  match rest with
  | [] => return ⟨⟨oid⟩, none⟩
  | _ =>
    let (parameters, _) ← Der.read? lengths rest
    return ⟨⟨oid⟩, some parameters⟩

def plain (oid : Oid) : AlgorithmId := ⟨oid, none⟩

def withNull (oid : Oid) : AlgorithmId := ⟨oid, some ⟨Der.null, [], Der.encode Der.null []⟩⟩

/-- An algorithm whose parameter is an identifier. -/
def withOid (oid parameter : Oid) : AlgorithmId :=
  ⟨oid, some ⟨Der.objectIdentifier, parameter.octets, parameter.encode⟩⟩

/-- The identifier that is the parameter of an algorithm. -/
def parameterOid? (a : AlgorithmId) : Option Oid :=
  match a.parameters with
  | some e => if e.tag = Der.objectIdentifier then some ⟨e.content⟩ else none
  | none => none

end AlgorithmId

/-- A public key with its algorithm, and its encoding as it was written. -/
structure PublicKeyInfo where
  algorithm : AlgorithmId
  key : Bytes
  raw : Bytes
  deriving DecidableEq, Repr

namespace PublicKeyInfo

/-- A public key in its distinguished encoding. -/
def make (algorithm : AlgorithmId) (key : Bytes) : PublicKeyInfo :=
  ⟨algorithm, key, Der.encode Der.sequence (algorithm.encode ++ Der.encodeBits key)⟩

/-- The public key in an element of an encoding. -/
def ofElement? (lengths : Der.Lengths) (e : Der.Element) : Option PublicKeyInfo := do
  guard (e.tag = Der.sequence)
  let (algorithm, rest) ← Der.readTag? lengths Der.sequence e.content
  let algorithm ← AlgorithmId.ofContent? lengths algorithm
  let (bits, _) ← Der.readTag? lengths Der.bitString rest
  let key ← Der.bits? bits
  return ⟨algorithm, key, e.raw⟩

/-- The modulus and the exponent that octets write as a sequence of two numbers. -/
def rsaNumbers? (b : Bytes) : Option Rsa.PublicKey := do
  let content ← Der.readOnly? .shortest Der.sequence b
  let (n, rest) ← Der.readNatural? .shortest content
  let (e, rest) ← Der.readNatural? .shortest rest
  guard (rest = [])
  return ⟨n, e⟩

/-- The sequence of modulus and exponent. -/
def encodeRsaNumbers (k : Rsa.PublicKey) : Bytes :=
  Der.encode Der.sequence (Der.encodeNatural k.modulus ++ Der.encodeNatural k.exponent)

/-- An RSA key as a public key of a certificate. -/
def ofRsa (k : Rsa.PublicKey) : PublicKeyInfo :=
  make (.withNull Oid.rsaEncryption) (encodeRsaNumbers k)

/-- The RSA key of a certificate whose public key is written in the distinguished encoding and
labelled as one. -/
def rsa? (k : PublicKeyInfo) : Option Rsa.PublicKey := do
  let content ← Der.readOnly? .shortest Der.sequence k.raw
  let (algorithm, rest) ← Der.readTag? .shortest Der.sequence content
  let algorithm ← AlgorithmId.ofContent? .shortest algorithm
  let bits ← Der.readOnly? .shortest Der.bitString rest
  guard (algorithm = .withNull Oid.rsaEncryption ∧ bits.head? = some 0)
  rsaNumbers? bits.tail

/-- The digest function in the parameters of a randomised signature. -/
def randomisedDigest? (a : AlgorithmId) : Option Digest := do
  let parameters ← a.parameters
  guard (parameters.tag = Der.sequence)
  let (hash, _) ← Der.readTag? .any (Der.explicitTag 0) parameters.content
  let (hash, _) ← Der.readTag? .any Der.sequence hash
  let hash ← AlgorithmId.ofContent? .any hash
  if hash.oid = Oid.sha256 then some .sha256
  else if hash.oid = Oid.sha384 then some .sha384
  else if hash.oid = Oid.sha512 then some .sha512
  else none

/-- The two numbers of a curve signature. -/
def curveSignature? (b : Bytes) : Option (Nat × Nat) := do
  let content ← Der.readOnly? .shortest Der.sequence b
  let (r, rest) ← Der.readNatural? .shortest content
  let (s, rest) ← Der.readNatural? .shortest rest
  guard (rest = [])
  return (r, s)

/-- Whether a key signed a message with an RSA scheme, for moduli of at least `least` bits, counted
in whole octets, and at most 8192, and odd exponents from 3 to 2^33 - 1. -/
def verifyRsa (k : PublicKeyInfo) (least : Nat)
    (scheme : Rsa.PublicKey → Bytes → Bytes → Bool) (message signature : Bytes) : Bool :=
  match rsaNumbers? k.key with
  | none => false
  | some key =>
    decide (least ≤ 8 * key.length ∧ Rsa.bitLength key.modulus ≤ 8192 ∧ key.modulus % 2 = 1 ∧
      3 ≤ key.exponent ∧ key.exponent < Rsa.exponentLimit ∧ key.exponent % 2 = 1) &&
      scheme key message signature

/-- Whether a key signed a message with points of the curve that the key names. -/
def verifyCurve (k : PublicKeyInfo) (h : Digest) (message signature : Bytes) : Bool :=
  let curve? := match k.algorithm.parameterOid? with
    | some o => if o = Oid.curveP256 then some Curve.p256
      else if o = Oid.curveP384 then some Curve.p384 else none
    | none => none
  match curve? with
  | none => false
  | some c =>
    match c.decode? k.key, curveSignature? signature with
    | some point, some (r, s) => Ecdsa.verify c h point message r s
    | _, _ => false

/-- Whether a key signed a message, for a signature of a given algorithm. -/
def verify (k : PublicKeyInfo) (a : AlgorithmId) (message signature : Bytes) : Bool :=
  if a.oid = Oid.rsaSha1 ∨ a.oid = Oid.rsaSha1Old then
    k.verifyRsa 1024 (fun key => key.verify .sha1) message signature
  else if a.oid = Oid.rsaSha256 then
    k.verifyRsa 2048 (fun key => key.verify .sha256) message signature
  else if a.oid = Oid.rsaSha384 then
    k.verifyRsa 2048 (fun key => key.verify .sha384) message signature
  else if a.oid = Oid.rsaSha512 then
    k.verifyRsa 2048 (fun key => key.verify .sha512) message signature
  else if a.oid = Oid.rsaRandomised then
    match randomisedDigest? a with
    | some h => k.verifyRsa 2048 (fun key => key.verifyRandomised h) message signature
    | none => false
  else if a.oid = Oid.curveSha256 then k.verifyCurve .sha256 message signature
  else if a.oid = Oid.curveSha384 then k.verifyCurve .sha384 message signature
  else if a.oid = Oid.edwards then
    k.key.length == 32 && Edwards.verify k.key message signature
  else false

end PublicKeyInfo

end X509

end CredentialServer
