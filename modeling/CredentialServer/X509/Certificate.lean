import CredentialServer.Time.Calendar
import CredentialServer.X509.Extension
import CredentialServer.X509.PublicKey

/-!
# Certificates

A certificate is a statement (`Certificate.Contents`) that its issuer signed. The statement binds a
name to a public key for a time. Main definitions: `Contents.encode` fixes what is signed, and
`ofDer?` reads a certificate, whatever follows it.
-/

namespace CredentialServer

namespace X509

/-! ### Times -/

def twoDigits (n : Nat) : Bytes := [UInt8.ofNat (48 + n / 10 % 10), UInt8.ofNat (48 + n % 10)]

/-- The encoding of a second: with two digits of the year from 1950 to 2049, else with four. -/
def encodeTime (second : Int) : Bytes :=
  let d := Date.ofSeconds second
  let rest := [d.month, d.day, d.hour, d.minute, d.second].flatMap twoDigits ++ [0x5a]
  let year := d.year.toNat
  if 1950 ≤ d.year ∧ d.year < 2050 then Der.encode Der.utcTime (twoDigits (year % 100) ++ rest)
  else Der.encode Der.generalizedTime (twoDigits (year / 100) ++ twoDigits (year % 100) ++ rest)

/-- The numbers that pairs of decimal digits write, up to a final Z. -/
def digitPairs? : Bytes → Option (List Nat)
  | [0x5a] => some []
  | x :: y :: rest =>
    let a := x.toNat
    let b := y.toNat
    if 48 ≤ a ∧ a ≤ 57 ∧ 48 ≤ b ∧ b ≤ 57 then
      (digitPairs? rest).map (((a - 48) * 10 + (b - 48)) :: ·)
    else none
  | _ => none

/-- The second that an element of an encoding names. -/
def timeOfElement? (e : Der.Element) : Option Int := do
  let pairs ← digitPairs? e.content
  let date : Date ← match pairs with
    | [y, mo, d, h, mi, s] =>
      if e.tag = Der.utcTime then some ⟨if y < 50 then 2000 + y else 1900 + y, mo, d, h, mi, s⟩
      else none
    | [c, y, mo, d, h, mi, s] =>
      if e.tag = Der.generalizedTime then some ⟨c * 100 + y, mo, d, h, mi, s⟩ else none
    | _ => none
  if date.isValid then some date.toSeconds else none

namespace Certificate

/-- What the issuer of a certificate states. The serial number is in its encoded octets; times are
seconds since the start of 1970. -/
structure Contents where
  version : Nat
  serial : Bytes
  algorithm : AlgorithmId
  issuer : Name
  notBefore : Int
  notAfter : Int
  subject : Name
  publicKey : PublicKeyInfo
  extensions : List Extension
  deriving DecidableEq, Repr

def Contents.encode (c : Contents) : Bytes :=
  Der.encode Der.sequence (
    Der.encode (Der.explicitTag 0) (Der.encodeNatural (c.version - 1)) ++
    Der.encode Der.integer c.serial ++ c.algorithm.encode ++ c.issuer.encode ++
    Der.encode Der.sequence (encodeTime c.notBefore ++ encodeTime c.notAfter) ++
    c.subject.encode ++ c.publicKey.raw ++
    Der.encode (Der.explicitTag 3)
      (Der.encode Der.sequence (c.extensions.flatMap Extension.encode)))

/-- The version in an explicit tag at the head of a statement; without one it is the first. -/
def readVersion? (b : Bytes) : Option (Nat × Bytes) :=
  match Der.read? .any b with
  | none => none
  | some (e, rest) =>
    if e.tag = Der.explicitTag 0 then
      (Der.readNatural? .any e.content).map (fun v => (v.1 + 1, rest))
    else some (1, b)

/-- Skips a value with a given tag, if it stands here. -/
def skip (tag : UInt8) (b : Bytes) : Bytes :=
  match Der.readTag? .any tag b with
  | some (_, rest) => rest
  | none => b

/-- The extensions at the end of a statement. -/
def extensions? (b : Bytes) : Option (List Extension) :=
  match b with
  | [] => some []
  | _ =>
    (Der.readTag? .any (Der.explicitTag 3) b).bind (fun (content, _) =>
      (Der.readTag? .any Der.sequence content).bind (fun (content, _) =>
        (Der.readAll? .any content).bind
          (Name.each? Der.sequence (Extension.ofContent?))))

/-- The statement that these octets are the content of. -/
def Contents.ofContent? (content : Bytes) : Option Contents := do
  let (version, rest) ← readVersion? content
  let (serial, rest) ← Der.readTag? .any Der.integer rest
  let (algorithm, rest) ← Der.readTag? .any Der.sequence rest
  let algorithm ← AlgorithmId.ofContent? .any algorithm
  let (issuer, rest) ← Der.readTag? .any Der.sequence rest
  let (validity, rest) ← Der.readTag? .any Der.sequence rest
  let (first, next) ← Der.read? .any validity
  let (last, _) ← Der.read? .any next
  let notBefore ← timeOfElement? first
  let notAfter ← timeOfElement? last
  let (subject, rest) ← Der.readTag? .any Der.sequence rest
  let (key, rest) ← Der.read? .any rest
  let publicKey ← PublicKeyInfo.ofElement? .any key
  let extensions ← extensions? (skip (Der.implicitTag 2) (skip (Der.implicitTag 1) rest))
  return ⟨version, serial, algorithm, Name.ofContent issuer, notBefore, notAfter,
    Name.ofContent subject, publicKey, extensions⟩

end Certificate

/-- A statement with the octets that were signed and the signature. -/
structure Certificate where
  contents : Certificate.Contents
  signed : Bytes
  algorithm : AlgorithmId
  signature : Bytes
  deriving DecidableEq, Repr

namespace Certificate

def encode (c : Certificate) : Bytes :=
  Der.encode Der.sequence (c.signed ++ c.algorithm.encode ++ Der.encodeBits c.signature)

/-- The certificate at the head of some octets. -/
def ofDer? (b : Bytes) : Option Certificate := do
  let (content, _) ← Der.readTag? .any Der.sequence b
  let (statement, rest) ← Der.read? .any content
  guard (statement.tag = Der.sequence)
  let contents ← Contents.ofContent? statement.content
  let (algorithm, rest) ← Der.readTag? .any Der.sequence rest
  let algorithm ← AlgorithmId.ofContent? .any algorithm
  let (bits, _) ← Der.readTag? .any Der.bitString rest
  let signature ← Der.bits? bits
  return ⟨contents, statement.raw, algorithm, signature⟩

/-- The extension of a certificate that may stand only once. -/
def find (c : Certificate) (oid : Oid) : Extension.Found :=
  Extension.findUnique oid c.contents.extensions

/-- Whether the holder of a key signed a certificate. -/
def isSignedBy (c : Certificate) (key : PublicKeyInfo) : Bool :=
  key.verify c.algorithm c.signed c.signature

/-- Whether an instant lies between the ends of the time of a certificate, both included. -/
def isValidAt (c : Certificate) (now : Instant) : Bool :=
  decide (Instant.ofSeconds c.contents.notBefore ≤ now ∧
    now ≤ Instant.ofSeconds c.contents.notAfter)

end Certificate

end X509

end CredentialServer
