import CredentialServer.Bytes
import CredentialServer.Crypto.Modular

/-!
# Elliptic curves over a prime field

The curves `y² = x³ - 3x + b` that certificates use, with points in Jacobian coordinates: the point
`(x, y, z)` stands for `(x / z², y / z³)`, and `z = 0` for the point at infinity. Main statement:
`decode?_isOn` (a point that was read lies on its curve).
-/

namespace CredentialServer

/-- A curve with a base point of prime order. -/
structure Curve where
  prime : Nat
  b : Nat
  order : Nat
  baseX : Nat
  baseY : Nat
  width : Nat
  deriving DecidableEq

namespace Curve

def p256 : Curve where
  prime := 0xffffffff00000001000000000000000000000000ffffffffffffffffffffffff
  b := 0x5ac635d8aa3a93e7b3ebbd55769886bc651d06b0cc53b0f63bce3c3e27d2604b
  order := 0xffffffff00000000ffffffffffffffffbce6faada7179e84f3b9cac2fc632551
  baseX := 0x6b17d1f2e12c4247f8bce6e563a440f277037d812deb33a0f4a13945d898c296
  baseY := 0x4fe342e2fe1a7f9b8ee7eb4a7c0f9e162bce33576b315ececbb6406837bf51f5
  width := 32

def p384 : Curve where
  prime := 0xfffffffffffffffffffffffffffffffffffffffffffffffffffffffffffffffeffffffff0000000000000000ffffffff
  b := 0xb3312fa7e23ee7e4988e056be3f82d19181d9c6efe8141120314088f5013875ac656398d8a2ed19d2a85c8edd3ec2aef
  order := 0xffffffffffffffffffffffffffffffffffffffffffffffffc7634d81f4372ddf581a0db248b0a77aecec196accc52973
  baseX := 0xaa87ca22be8b05378eb1c71ef320ad746e1d3b628ba79b9859f741e082542a385502f25dbf55296c3a545e3872760ab7
  baseY := 0x3617de4a96262c6f5d9e98bf9292dc29f8f41dbd289a147ce9da3113b5f0b8c00a60b1ce1d7e819d7a431d7c90ea0e5f
  width := 48

/-- A point in Jacobian coordinates. -/
structure Point where
  x : Nat
  y : Nat
  z : Nat
  deriving DecidableEq

def infinity : Point := ⟨1, 1, 0⟩

def base (c : Curve) : Point := ⟨c.baseX, c.baseY, 1⟩

def double (c : Curve) (p : Point) : Point :=
  if p.z = 0 ∨ p.y = 0 then infinity
  else
    let m := c.prime
    let yy := p.y * p.y % m
    let s := 4 * p.x * yy % m
    let zz := p.z * p.z % m
    let slope := 3 * (subMod p.x zz m) * (p.x + zz) % m
    let x := subMod (slope * slope % m) (2 * s % m) m
    let y := subMod (slope * subMod s x m % m) (8 * yy * yy % m) m
    ⟨x, y, 2 * p.y * p.z % m⟩

def add (c : Curve) (p q : Point) : Point :=
  if p.z = 0 then q
  else if q.z = 0 then p
  else
    let m := c.prime
    let pz := p.z * p.z % m
    let qz := q.z * q.z % m
    let u := p.x * qz % m
    let v := q.x * pz % m
    let s := p.y * qz * q.z % m
    let t := q.y * pz * p.z % m
    if u = v then
      if s = t then c.double p else infinity
    else
      let h := subMod v u m
      let r := subMod t s m
      let hh := h * h % m
      let hhh := h * hh % m
      let uhh := u * hh % m
      let x := subMod (subMod (r * r % m) hhh m) (2 * uhh % m) m
      let y := subMod (r * subMod uhh x m % m) (s * hhh % m) m
      ⟨x, y, h * p.z * q.z % m⟩

/-- A point `n` times added to itself. -/
def multiply (c : Curve) (n : Nat) (p : Point) : Point :=
  if h : n = 0 then infinity
  else
    let half := c.multiply (n / 2) (c.double p)
    if n % 2 = 1 then c.add p half else half
termination_by n
decreasing_by exact Nat.div_lt_self (Nat.pos_of_ne_zero h) (by decide)

/-- The coordinates of a finite point. -/
def affine? (c : Curve) (p : Point) : Option (Nat × Nat) :=
  if p.z = 0 then none
  else
    let i := inverseMod p.z c.prime
    let ii := i * i % c.prime
    some (p.x * ii % c.prime, p.y * (ii * i % c.prime) % c.prime)

/-- Whether coordinates satisfy the equation of the curve. -/
def isOn (c : Curve) (x y : Nat) : Bool :=
  x < c.prime && y < c.prime &&
    y * y % c.prime == (x * x * x + (c.prime - 3) * x + c.b) % c.prime

/-- A finite point written out in full: the octet 4 and both coordinates. -/
def encode (c : Curve) (x y : Nat) : Bytes := 4 :: Bytes.ofNat c.width x ++ Bytes.ofNat c.width y

/-- The point on the curve that octets write out in full. -/
def decode? (c : Curve) (b : Bytes) : Option (Nat × Nat) :=
  match b with
  | 4 :: rest =>
    let x := Bytes.toNat (rest.take c.width)
    let y := Bytes.toNat (rest.drop c.width)
    if rest.length = 2 * c.width ∧ c.isOn x y then some (x, y) else none
  | _ => none

theorem decode?_isOn {c : Curve} {b : Bytes} {x y : Nat} (h : c.decode? b = some (x, y)) :
    c.isOn x y = true := by
  simp only [decode?] at h
  split at h
  · split at h
    · next hc => cases h; exact hc.2
    · cases h
  · cases h

end Curve

end CredentialServer
