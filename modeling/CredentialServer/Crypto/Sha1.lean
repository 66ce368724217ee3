import CredentialServer.Crypto.Sha2

/-!
# SHA-1

The older digest, which some certificates are still signed with. Main statement: `length_sha1`.
-/

namespace CredentialServer

namespace Sha1

/-- The five words that are mixed with the message. -/
structure State where
  a : BitVec 32
  b : BitVec 32
  c : BitVec 32
  d : BitVec 32
  e : BitVec 32

/-- One round, with its mixing function and constant by the number of the round. -/
def round (s : State) (iw : Nat × BitVec 32) : State :=
  let (f, k) : BitVec 32 × BitVec 32 :=
    if iw.1 < 20 then ((s.b &&& s.c) ||| (~~~s.b &&& s.d), 0x5a827999)
    else if iw.1 < 40 then (s.b ^^^ s.c ^^^ s.d, 0x6ed9eba1)
    else if iw.1 < 60 then ((s.b &&& s.c) ||| (s.b &&& s.d) ||| (s.c &&& s.d), 0x8f1bbcdc)
    else (s.b ^^^ s.c ^^^ s.d, 0xca62c1d6)
  ⟨s.a.rotateLeft 5 + f + s.e + k + iw.2, s.a, s.b.rotateLeft 30, s.c, s.d⟩

/-- The words of the rounds. -/
def schedule : Nat → List (BitVec 32) → List (BitVec 32)
  | 0, _ => []
  | n + 1, window =>
    let next := (window.getD 13 0 ^^^ window.getD 8 0 ^^^ window.getD 2 0 ^^^
      window.headD 0).rotateLeft 1
    window.headD 0 :: schedule n (window.tail ++ [next])

def compress (s : State) (block : List (BitVec 32)) : State :=
  let t := ((List.range 80).zip (schedule 80 block)).foldl round s
  ⟨s.a + t.a, s.b + t.b, s.c + t.c, s.d + t.d, s.e + t.e⟩

end Sha1

open Sha1

/-- The digest of a message in 160 bits. -/
def sha1 (message : Bytes) : Bytes :=
  let padded := Sha2.pad 4 message
  let s := (Sha2.chunks 64 (padded.length / 64) padded).foldl
    (fun s block => compress s (Sha2.toWords 4 block))
    ⟨0x67452301, 0xefcdab89, 0x98badcfe, 0x10325476, 0xc3d2e1f0⟩
  [s.a, s.b, s.c, s.d, s.e].flatMap (fun x => Bytes.ofNat 4 x.toNat)

@[simp] theorem length_sha1 (message : Bytes) : (sha1 message).length = 20 := by
  simp only [sha1, List.flatMap_cons, List.flatMap_nil, List.append_nil, List.length_append,
    Bytes.length_ofNat]

end CredentialServer
