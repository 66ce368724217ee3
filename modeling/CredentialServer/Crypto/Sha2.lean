import CredentialServer.Bytes

/-!
# SHA-2

A message is padded to whole blocks of sixteen words, and a state of eight words is mixed with one
block after the other. The two families differ in the width of a word, the rotations and the
number of rounds; the shorter words' constants are the upper halves of the longer ones'. Main
statements: `length_sha256`, `length_sha384` and `length_sha512` give the digests' lengths.
-/

namespace CredentialServer

namespace Sha2

/-- The fractional parts of the cube roots of the first eighty primes, in 64 bits. -/
def roundConstants : List Nat := [
  0x428a2f98d728ae22, 0x7137449123ef65cd, 0xb5c0fbcfec4d3b2f, 0xe9b5dba58189dbbc,
  0x3956c25bf348b538, 0x59f111f1b605d019, 0x923f82a4af194f9b, 0xab1c5ed5da6d8118,
  0xd807aa98a3030242, 0x12835b0145706fbe, 0x243185be4ee4b28c, 0x550c7dc3d5ffb4e2,
  0x72be5d74f27b896f, 0x80deb1fe3b1696b1, 0x9bdc06a725c71235, 0xc19bf174cf692694,
  0xe49b69c19ef14ad2, 0xefbe4786384f25e3, 0x0fc19dc68b8cd5b5, 0x240ca1cc77ac9c65,
  0x2de92c6f592b0275, 0x4a7484aa6ea6e483, 0x5cb0a9dcbd41fbd4, 0x76f988da831153b5,
  0x983e5152ee66dfab, 0xa831c66d2db43210, 0xb00327c898fb213f, 0xbf597fc7beef0ee4,
  0xc6e00bf33da88fc2, 0xd5a79147930aa725, 0x06ca6351e003826f, 0x142929670a0e6e70,
  0x27b70a8546d22ffc, 0x2e1b21385c26c926, 0x4d2c6dfc5ac42aed, 0x53380d139d95b3df,
  0x650a73548baf63de, 0x766a0abb3c77b2a8, 0x81c2c92e47edaee6, 0x92722c851482353b,
  0xa2bfe8a14cf10364, 0xa81a664bbc423001, 0xc24b8b70d0f89791, 0xc76c51a30654be30,
  0xd192e819d6ef5218, 0xd69906245565a910, 0xf40e35855771202a, 0x106aa07032bbd1b8,
  0x19a4c116b8d2d0c8, 0x1e376c085141ab53, 0x2748774cdf8eeb99, 0x34b0bcb5e19b48a8,
  0x391c0cb3c5c95a63, 0x4ed8aa4ae3418acb, 0x5b9cca4f7763e373, 0x682e6ff3d6b2b8a3,
  0x748f82ee5defb2fc, 0x78a5636f43172f60, 0x84c87814a1f0ab72, 0x8cc702081a6439ec,
  0x90befffa23631e28, 0xa4506cebde82bde9, 0xbef9a3f7b2c67915, 0xc67178f2e372532b,
  0xca273eceea26619c, 0xd186b8c721c0c207, 0xeada7dd6cde0eb1e, 0xf57d4f7fee6ed178,
  0x06f067aa72176fba, 0x0a637dc5a2c898a6, 0x113f9804bef90dae, 0x1b710b35131c471b,
  0x28db77f523047d84, 0x32caab7b40c72493, 0x3c9ebe0a15c9bebc, 0x431d67c49c100d4c,
  0x4cc5d4becb3e42b6, 0x597f299cfc657e2a, 0x5fcb6fab3ad6faec, 0x6c44198c4a475817]

/-- The fractional parts of the square roots of the first eight primes, in 64 bits. -/
def startWords : List Nat := [
  0x6a09e667f3bcc908, 0xbb67ae8584caa73b, 0x3c6ef372fe94f82b, 0xa54ff53a5f1d36f1,
  0x510e527fade682d1, 0x9b05688c2b3e6c1f, 0x1f83d9abfb41bd6b, 0x5be0cd19137e2179]

/-- The fractional parts of the square roots of the next eight primes, in 64 bits. -/
def laterStartWords : List Nat := [
  0xcbbb9d5dc1059ed8, 0x629a292a367cd507, 0x9159015a3070dd17, 0x152fecd8f70e5939,
  0x67332667ffc00b31, 0x8eb44a8768581511, 0xdb0c2e0d64f98fa7, 0x47b5481dbefa4fa4]

/-- The eight words that are mixed with the message. -/
structure State (w : Nat) where
  a : BitVec w
  b : BitVec w
  c : BitVec w
  d : BitVec w
  e : BitVec w
  f : BitVec w
  g : BitVec w
  h : BitVec w

/-- What tells the two families apart: the rotations of the four mixing functions (the last of the
first two is a shift) and the rounds with their constants. -/
structure Family (w : Nat) where
  small₀ : Nat × Nat × Nat
  small₁ : Nat × Nat × Nat
  large₀ : Nat × Nat × Nat
  large₁ : Nat × Nat × Nat
  constants : List (BitVec w)

def words32 : Family 32 where
  small₀ := (7, 18, 3)
  small₁ := (17, 19, 10)
  large₀ := (2, 13, 22)
  large₁ := (6, 11, 25)
  constants := (roundConstants.take 64).map (fun k => BitVec.ofNat 32 (k >>> 32))

def words64 : Family 64 where
  small₀ := (1, 8, 7)
  small₁ := (19, 61, 6)
  large₀ := (28, 34, 39)
  large₁ := (14, 18, 41)
  constants := roundConstants.map (BitVec.ofNat 64)

variable {w : Nat}

/-- Two rotations and a shift, combined. -/
def rotateShift (r : Nat × Nat × Nat) (x : BitVec w) : BitVec w :=
  x.rotateRight r.1 ^^^ x.rotateRight r.2.1 ^^^ (x >>> r.2.2)

def rotateAll (r : Nat × Nat × Nat) (x : BitVec w) : BitVec w :=
  x.rotateRight r.1 ^^^ x.rotateRight r.2.1 ^^^ x.rotateRight r.2.2

def round (v : Family w) (s : State w) (kw : BitVec w × BitVec w) : State w :=
  let t₁ := s.h + rotateAll v.large₁ s.e + ((s.e &&& s.f) ^^^ (~~~s.e &&& s.g)) + kw.1 + kw.2
  let t₂ := rotateAll v.large₀ s.a + ((s.a &&& s.b) ^^^ (s.a &&& s.c) ^^^ (s.b &&& s.c))
  ⟨t₁ + t₂, s.a, s.b, s.c, s.d + t₁, s.e, s.f, s.g⟩

/-- The words of the rounds: those of the block and then one after the other from the sixteen
before it. -/
def schedule (v : Family w) : Nat → List (BitVec w) → List (BitVec w)
  | 0, _ => []
  | n + 1, window =>
    let next := rotateShift v.small₁ (window.getD 14 0) + window.getD 9 0 +
      rotateShift v.small₀ (window.getD 1 0) + window.headD 0
    window.headD 0 :: schedule v n (window.tail ++ [next])

def compress (v : Family w) (s : State w) (block : List (BitVec w)) : State w :=
  let words := schedule v v.constants.length block
  let t := (v.constants.zip words).foldl (round v) s
  ⟨s.a + t.a, s.b + t.b, s.c + t.c, s.d + t.d, s.e + t.e, s.f + t.f, s.g + t.g, s.h + t.h⟩

/-- The message with a one bit, zeros and its length in bits, to whole blocks of sixteen words of
`wordBytes` octets. -/
def pad (wordBytes : Nat) (message : Bytes) : Bytes :=
  let block := 16 * wordBytes
  let zeros := (2 * block - (message.length + 1 + 2 * wordBytes) % block) % block
  message ++ 0x80 :: List.replicate zeros 0 ++ Bytes.ofNat (2 * wordBytes) (message.length * 8)

/-- A list cut into parts of one length; a shorter rest is dropped. -/
def chunks (size : Nat) : Nat → List α → List (List α)
  | 0, _ => []
  | count + 1, l => l.take size :: chunks size count (l.drop size)

def toWords (wordBytes : Nat) (block : Bytes) : List (BitVec w) :=
  (chunks wordBytes 16 block).map (fun b => BitVec.ofNat w (Bytes.toNat b))

/-- The state after a message. -/
def run (v : Family w) (wordBytes : Nat) (start : State w) (message : Bytes) : State w :=
  let padded := pad wordBytes message
  (chunks (16 * wordBytes) (padded.length / (16 * wordBytes)) padded).foldl
    (fun s block => compress v s (toWords wordBytes block)) start

/-- A state of eight words from the upper bits of 64-bit numbers. -/
def State.ofList (w : Nat) (words : List Nat) : State w :=
  let word (i : Nat) : BitVec w := BitVec.ofNat w (words.getD i 0 >>> (64 - w))
  ⟨word 0, word 1, word 2, word 3, word 4, word 5, word 6, word 7⟩

def State.toBytes (wordBytes : Nat) (s : State w) : Bytes :=
  [s.a, s.b, s.c, s.d, s.e, s.f, s.g, s.h].flatMap (fun x => Bytes.ofNat wordBytes x.toNat)

theorem State.length_toBytes (wordBytes : Nat) (s : State w) :
    (s.toBytes wordBytes).length = 8 * wordBytes := by
  simp only [toBytes, List.flatMap_cons, List.flatMap_nil, List.append_nil, List.length_append,
    Bytes.length_ofNat]
  omega

end Sha2

open Sha2

def sha256 (message : Bytes) : Bytes :=
  (run words32 4 (.ofList 32 startWords) message).toBytes 4

def sha384 (message : Bytes) : Bytes :=
  ((run words64 8 (.ofList 64 laterStartWords) message).toBytes 8).take 48

def sha512 (message : Bytes) : Bytes :=
  (run words64 8 (.ofList 64 startWords) message).toBytes 8

@[simp] theorem length_sha256 (message : Bytes) : (sha256 message).length = 32 :=
  State.length_toBytes 4 _

@[simp] theorem length_sha384 (message : Bytes) : (sha384 message).length = 48 := by
  rw [sha384, List.length_take, State.length_toBytes]; rfl

@[simp] theorem length_sha512 (message : Bytes) : (sha512 message).length = 64 :=
  State.length_toBytes 8 _

end CredentialServer
