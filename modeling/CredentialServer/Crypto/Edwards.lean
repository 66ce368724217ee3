import CredentialServer.Crypto.Digest
import CredentialServer.Crypto.Modular

/-!
# Signatures by points of the twisted Edwards curve

The curve `-x² + y² = 1 + d x² y²` modulo `2^255 - 19`, with points in projective coordinates. A
point is written as its second coordinate, low octet first, with the parity of the first in the
top bit. Main statement: `length_encode`.
-/

namespace CredentialServer

namespace Edwards

def prime : Nat := (1 <<< 255) - 19

/-- The order of the base point. -/
def order : Nat := (1 <<< 252) + 27742317777372353535851937790883648493

/-- The constant of the curve, `-121665 / 121666`. -/
def d : Nat := 0x52036cee2b6ffe738cc740797779e89800700a4d4141d8ab75eb4dca135978a3

/-- A point: `(x, y, z)` stands for `(x / z, y / z)`. -/
structure Point where
  x : Nat
  y : Nat
  z : Nat
  deriving DecidableEq

def neutral : Point := ⟨0, 1, 1⟩

/-- The base point, whose second coordinate is four fifths. -/
def base : Point :=
  ⟨0x216936d3cd6e53fec0a4e231fdd6dc5c692cc7609525a7b2c9562d608f25d51a,
    0x6666666666666666666666666666666666666666666666666666666666666658, 1⟩

/-- The sum of two points; the formula has no exceptions. -/
def add (p q : Point) : Point :=
  let a := p.z * q.z % prime
  let b := a * a % prime
  let c := p.x * q.x % prime
  let e := p.y * q.y % prime
  let f := d * c % prime * e % prime
  let g := subMod b f prime
  let h := (b + f) % prime
  let cross := subMod ((p.x + p.y) * (q.x + q.y) % prime) ((c + e) % prime) prime
  ⟨a * g % prime * cross % prime, a * h % prime * (c + e) % prime, g * h % prime⟩

/-- A point `n` times added to itself. -/
def multiply (n : Nat) (p : Point) : Point :=
  if h : n = 0 then neutral
  else
    let half := multiply (n / 2) (add p p)
    if n % 2 = 1 then add p half else half
termination_by n
decreasing_by exact Nat.div_lt_self (Nat.pos_of_ne_zero h) (by decide)

/-- A number written low octet first in 32 octets. -/
def littleEndian (n : Nat) : Bytes := (Bytes.ofNat 32 n).reverse

/-- Octets as a number, low octet first. -/
def ofLittleEndian (b : Bytes) : Nat := Bytes.toNat b.reverse

/-- The bit of an encoded point that tells its two first coordinates apart. -/
def signBit : Nat := 1 <<< 255

/-- A point in 32 octets. -/
def encode (p : Point) : Bytes :=
  let i := inverseMod p.z prime
  let x := p.x * i % prime
  let y := p.y * i % prime
  littleEndian (y + x % 2 * signBit)

@[simp] theorem length_encode (p : Point) : (encode p).length = 32 := by
  simp [encode, littleEndian]

/-- The point that 32 octets write, if there is one. -/
def decode? (b : Bytes) : Option Point :=
  if b.length ≠ 32 then none
  else
    let n := ofLittleEndian b
    let y := n % signBit % prime
    let u := subMod (y * y % prime) 1 prime
    let v := (d * y % prime * y + 1) % prime
    let root := powMod (u * inverseMod v prime % prime) ((prime + 3) / 8) prime
    let x? :=
      if v * root % prime * root % prime = u then some root
      else
        let other := root * powMod 2 ((prime - 1) / 4) prime % prime
        if v * other % prime * other % prime = u then some other else none
    x?.map (fun x => ⟨if x % 2 = n / signBit then x else (prime - x) % prime, y, 1⟩)

/-- The secret number and the further secret octets behind a key of 32 octets. -/
def expand (key : Bytes) : Nat × Bytes :=
  let h := sha512 key
  let n := ofLittleEndian (h.take 32)
  (n % (1 <<< 254) / 8 * 8 + (1 <<< 254), h.drop 32)

def publicKey (key : Bytes) : Bytes := encode (multiply (expand key).1 base)

/-- The signature of a message by a key. -/
def sign (key message : Bytes) : Bytes :=
  let (a, rest) := expand key
  let r := ofLittleEndian (sha512 (rest ++ message)) % order
  let R := encode (multiply r base)
  let k := ofLittleEndian (sha512 (R ++ publicKey key ++ message)) % order
  R ++ littleEndian ((r + k * a) % order)

@[simp] theorem length_sign (key message : Bytes) : (sign key message).length = 64 := by
  simp [sign, littleEndian]

/-- Whether octets are the signature of a message by the holder of a public key. -/
def verify (key message signature : Bytes) : Bool :=
  let R := signature.take 32
  let s := ofLittleEndian (signature.drop 32)
  if signature.length ≠ 64 ∨ order ≤ s then false
  else match decode? key with
    | none => false
    | some a =>
      let k := ofLittleEndian (sha512 (R ++ key ++ message)) % order
      let negated : Point := ⟨(prime - a.x) % prime, a.y, a.z⟩
      encode (add (multiply s base) (multiply k negated)) == R

end Edwards

end CredentialServer
