import CredentialServer.Crypto.Ecdsa
import CredentialServer.Crypto.Edwards
import CredentialServer.Crypto.Rsa
import CredentialServer.Ssh.Wire
import CredentialServer.Text.Base64
import CredentialServer.Text.Split

/-!
# Public keys in lines of text

A key is a name of its kind and fields that depend on it; a line shows the name, the key in base 64
and perhaps a comment, with one space between. Kinds that nobody knows are kept if their name has
a domain. Main definitions: `ofLine?` reads a line, and `verify` says what each kind can prove.
-/

namespace CredentialServer

namespace Ssh

/-- The curves that keys name. -/
inductive CurveName where
  | p256
  | p384
  | p521
  deriving DecidableEq, Repr

namespace CurveName

def text : CurveName → String
  | .p256 => "nistp256"
  | .p384 => "nistp384"
  | .p521 => "nistp521"

/-- The octets of a coordinate. -/
def width : CurveName → Nat
  | .p256 => 32
  | .p384 => 48
  | .p521 => 66

def ofText? (s : String) : Option CurveName := [p256, p384, p521].find? (fun c => c.text = s)

/-- Whether octets have the form of a point: in full, or one coordinate and a parity. -/
def isPoint (c : CurveName) (b : Bytes) : Bool :=
  match b with
  | tag :: rest =>
    (tag == 4 && rest.length == 2 * c.width) || ((tag == 2 || tag == 3) && rest.length == c.width)
  | [] => false

end CurveName

/-- A public key. Numbers and points are kept as they were written. -/
inductive PublicKey where
  | rsa (exponent modulus : Bytes)
  | dsa (p q g y : Bytes)
  | ecdsa (curve : CurveName) (point : Bytes)
  | ed25519 (key : Bytes)
  | tokenEcdsa (point : Bytes) (application : String)
  | tokenEd25519 (key : Bytes) (application : String)
  | other (name : String) (data : Bytes)
  deriving DecidableEq, Repr

namespace PublicKey

def kind : PublicKey → String
  | .rsa .. => "ssh-rsa"
  | .dsa .. => "ssh-dss"
  | .ecdsa curve _ => "ecdsa-sha2-" ++ curve.text
  | .ed25519 _ => "ssh-ed25519"
  | .tokenEcdsa .. => "sk-ecdsa-sha2-nistp256@openssh.com"
  | .tokenEd25519 .. => "sk-ssh-ed25519@openssh.com"
  | .other name _ => name

def fields : PublicKey → Bytes
  | .rsa e n => encodeString e ++ encodeString n
  | .dsa p q g y => encodeString p ++ encodeString q ++ encodeString g ++ encodeString y
  | .ecdsa curve point => encodeText curve.text ++ encodeString point
  | .ed25519 key => encodeString key
  | .tokenEcdsa point application =>
    encodeText CurveName.p256.text ++ encodeString point ++ encodeText application
  | .tokenEd25519 key application => encodeString key ++ encodeText application
  | .other _ data => encodeString data

def encode (k : PublicKey) : Bytes := encodeText k.kind ++ k.fields

/-- Whether a name of an unknown kind has the right form: a part before and a part behind the only
at sign, all of it ASCII. -/
def isForeignName (s : String) : Bool :=
  let l := s.toList
  match pieces '@' l with
  | [name, domain] => !name.isEmpty && !domain.isEmpty && l.all (·.toNat < 128) && l.length ≤ 64
  | _ => false

def readPoint? (curve : CurveName) (b : Bytes) : Option (Bytes × Bytes) := do
  let (name, b) ← readText? b
  guard (name = curve.text)
  let (point, b) ← readString? b
  guard (curve.isPoint point)
  return (point, b)

/-- Reads the fields of a key of a given kind. -/
def readFields? (kind : String) (b : Bytes) : Option (PublicKey × Bytes) := do
  if kind ∈ ["ssh-rsa", "rsa-sha2-256", "rsa-sha2-512"] then
    let (e, b) ← readSigned? b
    let (n, b) ← readSigned? b
    return (.rsa e n, b)
  else if kind = "ssh-dss" then
    let (p, b) ← readSigned? b
    let (q, b) ← readSigned? b
    let (g, b) ← readSigned? b
    let (y, b) ← readSigned? b
    return (.dsa p q g y, b)
  else if kind = "ssh-ed25519" then
    let (key, b) ← readString? b
    guard (key.length = 32)
    return (.ed25519 key, b)
  else if kind = "sk-ssh-ed25519@openssh.com" then
    let (key, b) ← readString? b
    guard (key.length = 32)
    let (application, b) ← readText? b
    return (.tokenEd25519 key application, b)
  else if kind = "sk-ecdsa-sha2-nistp256@openssh.com" then
    let (point, b) ← readPoint? .p256 b
    let (application, b) ← readText? b
    return (.tokenEcdsa point application, b)
  else
    match [CurveName.p256, .p384, .p521].find? (fun c => "ecdsa-sha2-" ++ c.text = kind) with
    | some curve =>
      let (point, b) ← readPoint? curve b
      return (.ecdsa curve point, b)
    | none =>
      guard (isForeignName kind)
      let (data, b) ← readString? b
      return (.other kind data, b)

/-- Reads the name of a kind, which is short. -/
def readKind? (b : Bytes) : Option (String × Bytes) := do
  let (kind, b) ← readText? b
  guard (kind.utf8ByteSize ≤ 48)
  return (kind, b)

def read? (b : Bytes) : Option (PublicKey × Bytes) := do
  let (kind, b) ← readKind? b
  readFields? kind b

/-- The key that some octets are the encoding of. -/
def ofBytes? (b : Bytes) : Option PublicKey :=
  match read? b with
  | some (k, []) => some k
  | _ => none

/-- Whether a character may stand in the name and in the digits of a line. -/
def isSegmentChar (c : Char) : Bool := c.isAlphanum || "+-/=@.".toList.contains c

/-- Cuts the name or the digits off a line; one space ends them. -/
def readSegment? (s : List Char) : Option (List Char × List Char) :=
  let segment := s.takeWhile isSegmentChar
  if segment.isEmpty then none
  else match s.drop segment.length with
    | [] => some (segment, [])
    | ' ' :: rest => some (segment, rest)
    | _ => none

/-- The key in a line. The name in front must be that of the key, and a comment may follow. -/
def ofLine? (line : List Char) : Option PublicKey := do
  let (kind, s) ← readSegment? (trimEnd line)
  let (digits, _) ← readSegment? s
  let data ← Base64.standard.decodePadded? digits
  let key ← ofBytes? data
  guard (key.kind.toList = kind)
  return key

/-- The line for a key, without a comment. -/
def line (k : PublicKey) : String :=
  k.kind ++ " " ++ String.ofList (Base64.standard.encodePadded k.encode)

/-- The RSA key of a public key, if its numbers are positive. -/
def rsa? : PublicKey → Option Rsa.PublicKey
  | .rsa e n =>
    match positive? n, positive? e with
    | some n, some e => some ⟨n, e⟩
    | _, _ => none
  | _ => none

def ofRsa (k : Rsa.PublicKey) : PublicKey := .rsa (signedOctets k.exponent) (signedOctets k.modulus)

/-- Whether the holder of a key signed a message: RSA keys with the longest digest, keys on the
smallest curve, and Edwards keys. -/
def verify (k : PublicKey) (algorithm : String) (message signature : Bytes) : Bool :=
  match k with
  | .rsa .. =>
    match k.rsa? with
    | some key => algorithm == "rsa-sha2-512" && key.verify .sha512 message signature
    | none => false
  | .ecdsa .p256 point =>
    match Curve.p256.decode? point, readSigned? signature with
    | some q, some (r, rest) =>
      match readSigned? rest with
      | some (s, []) =>
        algorithm == k.kind && Ecdsa.verify .p256 .sha256 q message (Bytes.toNat r) (Bytes.toNat s)
      | _ => false
    | _, _ => false
  | .ed25519 key => algorithm == k.kind && Edwards.verify key message signature
  | _ => false

end PublicKey

end Ssh

end CredentialServer
