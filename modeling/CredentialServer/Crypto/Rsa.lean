import CredentialServer.Crypto.Digest
import CredentialServer.Crypto.Modular

/-!
# RSA

A public key is a modulus and an exponent; a signature is a frame around a digest, raised to the
private exponent. Two frames are read: the plain one, which is also written, and the randomised
one. Main statements: `length_frame?` (a frame is as long as the modulus) and `exists_sign` (a
modulus with room for a frame signs every message).
-/

namespace CredentialServer

namespace Rsa

/-- What everyone may know of a key. -/
structure PublicKey where
  modulus : Nat
  exponent : Nat
  deriving DecidableEq, Repr

/-- Exponents are below this: they have at most 33 bits. -/
abbrev exponentLimit : Nat := 2 * UInt32.size

/-- A key with its secret part. -/
structure PrivateKey where
  modulus : Nat
  exponent : Nat
  secret : Nat
  prime₁ : Nat
  prime₂ : Nat
  deriving DecidableEq

def PrivateKey.toPublic (k : PrivateKey) : PublicKey := ⟨k.modulus, k.exponent⟩

/-- The number of octets that a signature by a key has. -/
def PublicKey.length (k : PublicKey) : Nat := Bytes.widthOf k.modulus

def bitLength (n : Nat) : Nat := if n = 0 then 0 else n.log2 + 1

/-- The frame around the digest of a message, in a given number of octets, if they suffice. -/
def frame? (h : Digest) (message : Bytes) (width : Nat) : Option Bytes :=
  let tail := h.frame ++ h.run message
  if tail.length + 11 ≤ width then
    some (0 :: 1 :: List.replicate (width - tail.length - 3) 0xff ++ 0 :: tail)
  else none

theorem length_frame? {h : Digest} {message f : Bytes} {width : Nat}
    (hf : frame? h message width = some f) : f.length = width := by
  simp only [frame?] at hf
  split at hf
  · cases hf
    simp only [List.length_append, List.length_cons, List.length_replicate]
    simp only [List.length_append] at *
    omega
  · cases hf

/-- The signature of a message, if the modulus is long enough for the frame. -/
def PrivateKey.sign (k : PrivateKey) (h : Digest) (message : Bytes) : Option Bytes :=
  let width := k.toPublic.length
  (frame? h message width).map
    (fun f => Bytes.ofNat width (powMod (Bytes.toNat f) k.secret k.modulus))

/-- A modulus that leaves room for the frame of a digest signs every message. -/
theorem PrivateKey.exists_sign {k : PrivateKey} {h : Digest}
    (hroom : h.frame.length + h.length + 11 ≤ k.toPublic.length) (message : Bytes) :
    ∃ signature, k.sign h message = some signature := by
  have hlength : (h.frame ++ h.run message).length = h.frame.length + h.length := by
    rw [List.length_append, Digest.length_run]
  unfold sign frame?
  simp only [hlength, if_pos hroom, Option.map_some]
  exact ⟨_, rfl⟩

/-- The frame inside a signature of the right length. -/
def PublicKey.openFrame? (k : PublicKey) (signature : Bytes) : Option Bytes :=
  if signature.length = k.length ∧ Bytes.toNat signature < k.modulus then
    some (Bytes.ofNat k.length (powMod (Bytes.toNat signature) k.exponent k.modulus))
  else none

/-- Whether the plain frame inside a signature is the one of a message. -/
def PublicKey.verify (k : PublicKey) (h : Digest) (message signature : Bytes) : Bool :=
  match k.openFrame? signature, frame? h message k.length with
  | some f, some g => f == g
  | _, _ => false

/-- Octets that spread a seed out, `count` digests of them. -/
def spread (h : Digest) (seed : Bytes) : Nat → Bytes
  | 0 => []
  | count + 1 => spread h seed count ++ h.run (seed ++ Bytes.ofNat 4 count)

/-- Whether the randomised frame inside a signature is one of a message: a masked block of zeros, a
one and a salt as long as a digest, the digest of zeros, the message's digest and the salt, and
the octet bc. -/
def PublicKey.verifyRandomised (k : PublicKey) (h : Digest) (message signature : Bytes) : Bool :=
  let bits := bitLength k.modulus - 1
  let width := (bits + 7) / 8
  match k.openFrame? signature with
  | none => false
  | some opened =>
    let frame := opened.drop (opened.length - width)
    if width < 2 * h.length + 2 ∨ (opened.take (opened.length - width)).any (· != 0) ∨
        frame.getLast? ≠ some 0xbc then false
    else
      let masked := frame.take (width - h.length - 1)
      let digest := (frame.drop masked.length).take h.length
      let unused := 8 * width - bits
      if 1 <<< (8 - unused) ≤ (masked.headD 0).toNat then false
      else
        let block := Bytes.xor masked (spread h digest (masked.length / h.length + 1))
        let block := UInt8.ofNat ((block.headD 0).toNat % (1 <<< (8 - unused))) :: block.tail
        let zeros := masked.length - h.length - 1
        let salt := block.drop (zeros + 1)
        (block.take zeros).all (· == 0) && block.getD zeros 0 == 1 &&
          digest == h.run (List.replicate 8 0 ++ h.run message ++ salt)

end Rsa

end CredentialServer
