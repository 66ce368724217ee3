import CredentialServer.Crypto.Curve
import CredentialServer.Crypto.Digest

/-!
# Signatures by points of a curve

A signature is a pair of numbers below the order of the base point. The secret number behind the
first is derived from the key and the message, so a message has one signature. Main statement:
`nonces_lt` (a derived number is below the order).
-/

namespace CredentialServer

namespace Ecdsa

/-- The leading bits of a digest as a number, as many as the order has. -/
def leading (c : Curve) (digest : Bytes) : Nat :=
  let bits := c.order.log2 + 1
  let size := 8 * digest.length
  if bits < size then Bytes.toNat digest >>> (size - bits) else Bytes.toNat digest

/-- Whether a pair of numbers is the signature of a message by the holder of a point. -/
def verify (c : Curve) (h : Digest) (point : Nat × Nat) (message : Bytes) (r s : Nat) : Bool :=
  if r = 0 ∨ s = 0 ∨ c.order ≤ r ∨ c.order ≤ s then false
  else
    let i := inverseMod s c.order
    let u := leading c (h.run message) * i % c.order
    let v := r * i % c.order
    match c.affine? (c.add (c.multiply u c.base) (c.multiply v ⟨point.1, point.2, 1⟩)) with
    | none => false
    | some (x, _) => x % c.order == r

/-- The states of the generator that derives secret numbers: a key and a value, renewed from each
other. -/
def renew (h : Digest) (state : Bytes × Bytes) (tag : UInt8) (seed : Bytes) : Bytes × Bytes :=
  let key := h.keyed state.1 (state.2 ++ tag :: seed)
  (key, h.keyed key state.2)

/-- The first numbers, of at most `count`, that the generator yields and that lie strictly between
zero and the order. The digest is as long as the order. -/
def nonces (c : Curve) (h : Digest) (count : Nat) (state : Bytes × Bytes) : List Nat :=
  match count with
  | 0 => []
  | count + 1 =>
    let value := h.keyed state.1 state.2
    let k := leading c value
    let rest := nonces c h count (renew h (state.1, value) 0 [])
    if 0 < k ∧ k < c.order then k :: rest else rest

theorem nonces_lt {c : Curve} {h : Digest} {count : Nat} {state : Bytes × Bytes} {k : Nat}
    (hk : k ∈ nonces c h count state) : 0 < k ∧ k < c.order := by
  induction count generalizing state with
  | zero => simp [nonces] at hk
  | succ count ih =>
    simp only [nonces] at hk
    split at hk
    · next hb =>
      rcases List.mem_cons.1 hk with rfl | hk
      · exact hb
      · exact ih hk
    · exact ih hk

/-- The signature of a message by the holder of a secret number. The generator is asked for sixteen
numbers, of which the first fails with a probability of 2^-32 at most. -/
def sign (c : Curve) (h : Digest) (secret : Nat) (message : Bytes) : Option (Nat × Nat) :=
  let e := leading c (h.run message)
  let seed := Bytes.ofNat c.width secret ++ Bytes.ofNat c.width (e % c.order)
  let start := renew h (List.replicate h.length 0, List.replicate h.length 1) 0 seed
  let state := renew h start 1 seed
  (nonces c h 16 state).findSome? (fun k =>
    match c.affine? (c.multiply k c.base) with
    | none => none
    | some (x, _) =>
      let r := x % c.order
      let s := inverseMod k c.order * (e + r * secret) % c.order
      if r = 0 ∨ s = 0 then none else some (r, s))

end Ecdsa

end CredentialServer
