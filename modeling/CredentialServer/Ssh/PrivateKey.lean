import CredentialServer.KeyFile.Rsa
import CredentialServer.Ssh.PublicKey

/-!
# Private keys in armour

A private key file names a cipher, repeats the public key and holds the private one behind two equal
check numbers, filled up to whole blocks of eight octets. Main definition: `PrivateKey.ofBytes?`
gives the files that are read; one that is locked by a passphrase is told apart.
-/

namespace CredentialServer

namespace Ssh

/-- A private key with its public half. -/
inductive PrivateKey where
  /-- The numbers of an RSA key, as they were written. -/
  | rsa (modulus exponent secret prime₁ prime₂ : Bytes)
  | ed25519 (seed : Bytes)
  | ecdsa (curve : CurveName) (point secret : Bytes)
  /-- A key of a kind that signs nothing here. -/
  | inert (publicKey : PublicKey)
  deriving DecidableEq

/-- What a private key file holds. -/
inductive KeyFileContent where
  | locked
  | unlocked (publicKey : PublicKey) (key : PrivateKey)
  deriving DecidableEq

namespace PrivateKey

/-- The words that a file starts with. -/
def magic : Bytes := Bytes.ofText "openssh-key-v1" ++ [0]

/-- The ciphers that may lock a file. -/
def ciphers : List (String × Nat × Nat) :=
  [("aes128-cbc", 16, 0), ("aes192-cbc", 16, 0), ("aes256-cbc", 16, 0), ("aes128-ctr", 16, 0),
    ("aes192-ctr", 16, 0), ("aes256-ctr", 16, 0), ("aes128-gcm@openssh.com", 16, 16),
    ("aes256-gcm@openssh.com", 16, 16), ("chacha20-poly1305@openssh.com", 8, 16),
    ("3des-cbc", 8, 0)]

/-- Reads the private half of an Edwards key: the seed and the public half derived from it. -/
def readEdwards? (b : Bytes) : Option (PublicKey × PrivateKey × Bytes) := do
  let (key, b) ← readString? b
  let (pair, b) ← readString? b
  let seed := pair.take 32
  guard (key.length = 32 ∧ pair.length = 64 ∧ pair.drop 32 = key ∧ Edwards.publicKey seed = key)
  return (.ed25519 key, .ed25519 seed, b)

/-- Reads the private half of a curve key, in the width of the curve behind at most one zero. -/
def readCurve? (curve : CurveName) (b : Bytes) : Option (PublicKey × PrivateKey × Bytes) := do
  let (point, b) ← PublicKey.readPoint? curve b
  let (secret, b) ← readString? b
  let secret ← if secret.length = curve.width + 1 then
      (if secret.head? = some 0 then some secret.tail else none)
    else some secret
  guard (secret.length = curve.width)
  return (.ecdsa curve point, .ecdsa curve point secret, b)

/-- Reads a private key with its public half. -/
def read? (b : Bytes) : Option (PublicKey × PrivateKey × Bytes) := do
  let (kind, b) ← PublicKey.readKind? b
  if kind ∈ ["ssh-rsa", "rsa-sha2-256", "rsa-sha2-512"] then
    let (n, b) ← readSigned? b
    let (e, b) ← readSigned? b
    let (d, b) ← readSigned? b
    let (_, b) ← readSigned? b
    let (p, b) ← readSigned? b
    let (q, b) ← readSigned? b
    return (.rsa e n, .rsa n e d p q, b)
  else if kind = "ssh-ed25519" then readEdwards? b
  else if kind = "ssh-dss" then
    let (key, b) ← PublicKey.readFields? kind b
    let (_, b) ← readSigned? b
    return (key, .inert key, b)
  else if kind = "sk-ssh-ed25519@openssh.com" ∨ kind = "sk-ecdsa-sha2-nistp256@openssh.com" then
    let (key, b) ← PublicKey.readFields? kind b
    let (_, b) ← readNat? 1 b
    let (_, b) ← readString? b
    let (_, b) ← readString? b
    return (key, .inert key, b)
  else
    match [CurveName.p256, .p384, .p521].find? (fun c => "ecdsa-sha2-" ++ c.text = kind) with
    | some curve => readCurve? curve b
    | none =>
      let (key, b) ← PublicKey.readFields? kind b
      let (_, b) ← readString? b
      return (key, .inert key, b)

/-- Reads the unlocked part of a file: check numbers, key, comment and filling. -/
def readOpen? (publicKey : PublicKey) (b : Bytes) : Option PrivateKey := do
  guard (b.length % 8 = 0)
  let (first, b) ← readNat? 4 b
  let (second, b) ← readNat? 4 b
  guard (first = second)
  let (repeated, key, b) ← read? b
  guard (repeated = publicKey)
  let (_, b) ← readText? b
  guard (b.length < 8 ∧ b = (Bytes.ofText "\x01\x02\x03\x04\x05\x06\x07").take b.length)
  return key

/-- Whether a locked part has whole blocks and, for some ciphers, a tag behind it. -/
def isLocked (block tag : Nat) (b : Bytes) : Bool :=
  match readString? b with
  | some (text, rest) => text.length % block == 0 && rest.length == tag
  | none => false

/-- Whether the derivation of the key that locks a file is one that is known. -/
def isDerivation (name : String) (options : Bytes) : Bool :=
  if name = "none" then options.isEmpty
  else if name = "bcrypt" then
    match readString? options with
    | some (_, rest) => rest.length == 4
    | none => false
  else false

def ofBytes? (b : Bytes) : Option KeyFileContent := do
  guard (magic.isPrefixOf b)
  let (cipher, b) ← readText? (b.drop magic.length)
  let (derivation, b) ← readText? b
  let (options, b) ← readString? b
  guard (isDerivation derivation options)
  let (count, b) ← readNat? 4 b
  guard (count = 1)
  let (published, b) ← readString? b
  let published ← PublicKey.ofBytes? published
  if cipher = "none" then
    guard (derivation = "none")
    let (secret, b) ← readString? b
    guard (b = [])
    let key ← readOpen? published secret
    return .unlocked published key
  else
    let (block, tag) ← ciphers.lookup cipher
    guard (isLocked block tag b)
    return .locked

def ofText? (s : String) : Option KeyFileContent :=
  match Pem.strict? 70 s.toList with
  | some block =>
    if block.label = "OPENSSH PRIVATE KEY".toList then ofBytes? block.content else none
  | none => none

end PrivateKey

end Ssh

end CredentialServer
