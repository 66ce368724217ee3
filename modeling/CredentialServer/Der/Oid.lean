import CredentialServer.Der.Element

/-!
# Object identifiers

A path of numbers that names an algorithm, an attribute or an extension. The first two numbers
share one group of base-128 digits, each other number has its own. The examples fix the two
directions.
-/

namespace CredentialServer

/-- An object identifier, by its encoded groups. -/
structure Oid where
  octets : Bytes
  deriving DecidableEq, Repr

namespace Oid

/-- The base-128 digits of a number, the first ones marked by the top bit. -/
def group (n : Nat) : Bytes :=
  let width := if n = 0 then 1 else n.log2 / 7 + 1
  (List.range width).map (fun i =>
    let d := (n >>> (7 * (width - 1 - i))) % 128
    UInt8.ofNat (if i + 1 = width then d else d + 128))

/-- The identifier with these numbers. -/
def ofNumbers : List Nat → Oid
  | a :: b :: rest => ⟨group (a * 40 + b) ++ rest.flatMap group⟩
  | _ => ⟨[]⟩

/-- The numbers that groups of digits write. -/
def ungroup (partialSum : Nat) : Bytes → List Nat
  | [] => []
  | x :: rest =>
    let n := partialSum * 128 + x.toNat % 128
    if x.toNat < 128 then n :: ungroup 0 rest else ungroup n rest

def numbers (o : Oid) : List Nat :=
  match ungroup 0 o.octets with
  | [] => []
  | n :: rest => (if n < 80 then [n / 40, n % 40] else [2, n - 80]) ++ rest

def text (o : Oid) : String := String.intercalate "." (o.numbers.map toString)

def encode (o : Oid) : Bytes := Der.encode Der.objectIdentifier o.octets

example : (ofNumbers [1, 2, 840, 113549]).octets = [0x2a, 0x86, 0x48, 0x86, 0xf7, 0x0d] := by decide
example : (ofNumbers [2, 5, 29, 35]).numbers = [2, 5, 29, 35] := by decide

/-! ### Keys and signatures -/

def rsaEncryption : Oid := ofNumbers [1, 2, 840, 113549, 1, 1, 1]

def rsaSha1 : Oid := ofNumbers [1, 2, 840, 113549, 1, 1, 5]

/-- RSA signatures of SHA-1 digests, by an older name. -/
def rsaSha1Old : Oid := ofNumbers [1, 3, 14, 3, 2, 29]

/-- RSA signatures with random padding; parameters name the digest. -/
def rsaRandomised : Oid := ofNumbers [1, 2, 840, 113549, 1, 1, 10]

def rsaSha256 : Oid := ofNumbers [1, 2, 840, 113549, 1, 1, 11]

def rsaSha384 : Oid := ofNumbers [1, 2, 840, 113549, 1, 1, 12]

def rsaSha512 : Oid := ofNumbers [1, 2, 840, 113549, 1, 1, 13]

/-- Keys on an elliptic curve, which is a parameter. -/
def curveKey : Oid := ofNumbers [1, 2, 840, 10045, 2, 1]

/-- The curve over a prime field of 256 bits. -/
def curveP256 : Oid := ofNumbers [1, 2, 840, 10045, 3, 1, 7]

/-- The curve over a prime field of 384 bits. -/
def curveP384 : Oid := ofNumbers [1, 3, 132, 0, 34]

def curveSha256 : Oid := ofNumbers [1, 2, 840, 10045, 4, 3, 2]

def curveSha384 : Oid := ofNumbers [1, 2, 840, 10045, 4, 3, 3]

/-- Keys and signatures on the Edwards curve. -/
def edwards : Oid := ofNumbers [1, 3, 101, 112]

def sha256 : Oid := ofNumbers [2, 16, 840, 1, 101, 3, 4, 2, 1]

def sha384 : Oid := ofNumbers [2, 16, 840, 1, 101, 3, 4, 2, 2]

def sha512 : Oid := ofNumbers [2, 16, 840, 1, 101, 3, 4, 2, 3]

/-! ### Names, extensions and usages -/

def commonName : Oid := ofNumbers [2, 5, 4, 3]

/-- Which key is certified. -/
def subjectKeyIdentifier : Oid := ofNumbers [2, 5, 29, 14]

/-- What the key may be used for. -/
def keyUsage : Oid := ofNumbers [2, 5, 29, 15]

/-- Further names of the subject. -/
def subjectAlternativeName : Oid := ofNumbers [2, 5, 29, 17]

/-- Whether the subject may certify others, and how long a chain. -/
def basicConstraints : Oid := ofNumbers [2, 5, 29, 19]

/-- Which names may be certified. -/
def nameConstraints : Oid := ofNumbers [2, 5, 29, 30]

/-- Where revoked certificates are listed. -/
def distributionPoints : Oid := ofNumbers [2, 5, 29, 31]

/-- Which key signed. -/
def authorityKeyIdentifier : Oid := ofNumbers [2, 5, 29, 35]

/-- Whom the certificate may be shown to. -/
def extendedKeyUsage : Oid := ofNumbers [2, 5, 29, 37]

/-- The usage that stands for all. -/
def anyUsage : Oid := ofNumbers [2, 5, 29, 37, 0]

def serverUsage : Oid := ofNumbers [1, 3, 6, 1, 5, 5, 7, 3, 1]

def clientUsage : Oid := ofNumbers [1, 3, 6, 1, 5, 5, 7, 3, 2]

/-- The word in a request by which it can be taken back. -/
def challengePassword : Oid := ofNumbers [1, 2, 840, 113549, 1, 9, 7]

def extensionRequest : Oid := ofNumbers [1, 2, 840, 113549, 1, 9, 14]

end Oid

end CredentialServer
