import CredentialServer.Text.Pem
import CredentialServer.X509.PublicKey

/-!
# RSA private keys in armoured text

A private key is a sequence of numbers, bare under one label or inside an envelope that names the
algorithm under another. A key is taken only if its numbers fit together. Main statements:
`isSound_iff` says when they do, and `isSound_of_rsaOfDer` that every key that is read has them.
-/

namespace CredentialServer

namespace Rsa

/-- Whether a modulus and an exponent can belong to a key: at most 4096 bits, both odd, the exponent
from 2 to 2^33 - 1 and below the modulus. -/
def PublicKey.isSound (k : PublicKey) : Bool :=
  decide (bitLength k.modulus ≤ 4096 ∧ k.modulus % 2 = 1 ∧ k.exponent % 2 = 1 ∧ 2 ≤ k.exponent ∧
    k.exponent < exponentLimit ∧ k.exponent < k.modulus)

/-- Whether the numbers of a key fit together: the modulus is the product of the primes and the
exponents are inverse to each other modulo each prime less one. -/
def PrivateKey.isSound (k : PrivateKey) : Bool :=
  k.toPublic.isSound &&
  decide (2 ≤ k.prime₁ ∧ 2 ≤ k.prime₂ ∧ k.prime₁ * k.prime₂ = k.modulus ∧
    k.secret * k.exponent ≠ 0 ∧ (k.secret * k.exponent - 1) % (k.prime₁ - 1) = 0 ∧
    (k.secret * k.exponent - 1) % (k.prime₂ - 1) = 0)

theorem PrivateKey.isSound_iff (k : PrivateKey) : k.isSound = true ↔
    k.toPublic.isSound = true ∧ 2 ≤ k.prime₁ ∧ 2 ≤ k.prime₂ ∧
      k.prime₁ * k.prime₂ = k.modulus ∧ k.secret * k.exponent ≠ 0 ∧
      (k.secret * k.exponent - 1) % (k.prime₁ - 1) = 0 ∧
      (k.secret * k.exponent - 1) % (k.prime₂ - 1) = 0 := by
  simp only [isSound, Bool.and_eq_true, decide_eq_true_eq]

/-- Whether a key can sign certificates: 2048 to 4096 bits, two primes of half the length, which is
a multiple of 512, an exponent of at least 65537 and a secret below the modulus and longer than
half of it. -/
def PrivateKey.isStrong (k : PrivateKey) : Bool :=
  let bits := bitLength k.modulus
  decide (2048 ≤ 8 * k.toPublic.length ∧ bits ≤ 4096 ∧ 65537 ≤ k.exponent ∧
    2 * bitLength k.prime₁ = bits ∧ bitLength k.prime₂ = bitLength k.prime₁ ∧
    bitLength k.prime₁ % 512 = 0 ∧ k.secret < k.modulus ∧ bits / 2 < bitLength k.secret)

end Rsa

namespace KeyFile

/-- The key that a sequence of numbers writes: a version, modulus, exponent, secret, primes and
three numbers that follow from these. -/
def rsaOfDer? (b : Bytes) : Option Rsa.PrivateKey := do
  let content ← Der.readOnly? .shortest Der.sequence b
  let numbers ← (← Der.readAll? .shortest content).mapM (fun e =>
    if e.tag = Der.integer then Der.natural? e.content else none)
  match numbers with
  | [0, n, e, d, p, q, _, _, _] =>
    let key : Rsa.PrivateKey := ⟨n, e, d, p, q⟩
    if key.isSound then some key else none
  | _ => none

/-- The key inside an envelope: a version, an algorithm, the key and, in the second version,
more. -/
def rsaOfEnvelope? (b : Bytes) : Option Rsa.PrivateKey := do
  let content ← Der.readOnly? .shortest Der.sequence b
  let (version, rest) ← Der.readNatural? .shortest content
  let (algorithm, rest) ← Der.readTag? .shortest Der.sequence rest
  let algorithm ← X509.AlgorithmId.ofContent? .shortest algorithm
  let (key, rest) ← Der.readTag? .shortest Der.octetString rest
  let more ← Der.readAll? .shortest rest
  let hasPublic := more.any (fun e => e.tag = Der.implicitTag 1)
  guard (version ≤ 1 ∧ (version = 1 ↔ hasPublic = true) ∧
    more.all (fun e => 0x80 ≤ e.tag ∧ e.tag < 0xc0))
  guard (algorithm = .withNull Oid.rsaEncryption)
  rsaOfDer? key

def rsa? (s : String) : Option Rsa.PrivateKey :=
  match Pem.strict? 64 s.toList with
  | none => none
  | some block =>
    if block.label = "RSA PRIVATE KEY".toList then rsaOfDer? block.content
    else if block.label = "PRIVATE KEY".toList then rsaOfEnvelope? block.content
    else none

theorem isSound_of_rsaOfDer {b : Bytes} {k : Rsa.PrivateKey} (h : rsaOfDer? b = some k) :
    k.isSound = true := by
  simp only [rsaOfDer?, Option.bind_eq_bind, Option.bind_eq_some_iff] at h
  obtain ⟨_, _, _, _, _, _, h⟩ := h
  split at h
  · split at h
    · next hs => cases h; exact hs
    · cases h
  · cases h

end KeyFile

end CredentialServer
