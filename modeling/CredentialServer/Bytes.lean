/-!
# Octet strings

Keys, certificates, request bodies and random draws are all lists of octets. This module reads
them as big-endian numbers and writes numbers back, and crosses between octets and text. Main
statements: `toNat_append` (a number is read digit by digit), `length_ofNat` (a written number has
the width asked for) and `toNat_ofNat` (a number that fits is read back).
-/

namespace CredentialServer

/-- A string of octets. -/
abbrev Bytes := List UInt8

namespace Bytes

/-- The UTF-8 encoding of a text. -/
def ofText (s : String) : Bytes := s.toUTF8.data.toList

/-- The text that these octets encode, if they are valid UTF-8. -/
def toText? (b : Bytes) : Option String := String.fromUTF8? ⟨b.toArray⟩

theorem toText?_ofText (s : String) : toText? (ofText s) = some s := by
  have h : (⟨(ofText s).toArray⟩ : ByteArray) = s.toUTF8 := by simp [ofText]
  have hv : s.toUTF8.IsValidUTF8 := s.isValidUTF8
  rw [toText?, h, String.fromUTF8?, dif_pos hv]
  rfl

/-- The first number that does not fit this many octets. -/
def limit : Nat → Nat
  | 0 => 1
  | width + 1 => limit width * 256

/-- The octets as one big-endian number. -/
def toNat (b : Bytes) : Nat := b.foldl (fun n x => n * 256 + x.toNat) 0

/-- The last `width` base-256 digits of `n`, most significant first, followed by `tail`. -/
def prependNat : Nat → Nat → Bytes → Bytes
  | 0, _, tail => tail
  | width + 1, n, tail => prependNat width (n / 256) (UInt8.ofNat (n % 256) :: tail)

/-- The number `n` written big-endian in exactly `width` octets (higher digits are dropped). -/
def ofNat (width n : Nat) : Bytes := prependNat width n []

/-- How many octets the number `n` needs: none for zero. -/
def widthOf (n : Nat) : Nat := if n = 0 then 0 else n.log2 / 8 + 1

/-- The number `n` big-endian without a leading zero octet. -/
def minimal (n : Nat) : Bytes := ofNat (widthOf n) n

/-- Exclusive or, octet by octet, as long as the shorter operand. -/
def xor (a b : Bytes) : Bytes := a.zipWith (· ^^^ ·) b

/-- The first `n` octets and the rest, if there are that many. -/
def splitAt? (n : Nat) (b : Bytes) : Option (Bytes × Bytes) :=
  if n ≤ b.length then some (b.take n, b.drop n) else none

theorem foldl_toNat (b : Bytes) (n : Nat) :
    b.foldl (fun n x => n * 256 + x.toNat) n = n * limit b.length + toNat b := by
  induction b generalizing n with
  | nil => simp [toNat, limit]
  | cons x b ih =>
    simp only [toNat, List.foldl_cons, List.length_cons, limit]
    rw [ih, ih (0 * 256 + x.toNat), Nat.add_mul, Nat.zero_mul, Nat.zero_add, Nat.mul_assoc,
      Nat.mul_comm 256, Nat.add_assoc]

/-- A longer string is read by shifting the first part by the length of the second. -/
theorem toNat_append (a b : Bytes) : toNat (a ++ b) = toNat a * limit b.length + toNat b := by
  rw [toNat, List.foldl_append, foldl_toNat]; rfl

theorem length_prependNat (width n : Nat) (tail : Bytes) :
    (prependNat width n tail).length = width + tail.length := by
  induction width generalizing n tail with
  | zero => simp [prependNat]
  | succ width ih => simp only [prependNat, ih, List.length_cons]; omega

@[simp] theorem length_ofNat (width n : Nat) : (ofNat width n).length = width := by
  simp [ofNat, length_prependNat]

theorem toNat_prependNat (width n : Nat) (tail : Bytes) :
    toNat (prependNat width n tail) = n % limit width * limit tail.length + toNat tail := by
  induction width generalizing n tail with
  | zero => simp [prependNat, limit, Nat.mod_one]
  | succ width ih =>
    have hd : (UInt8.ofNat (n % 256)).toNat = n % 256 := by
      simp only [UInt8.toNat_ofNat']; omega
    have hc : toNat (UInt8.ofNat (n % 256) :: tail) =
        n % 256 * limit tail.length + toNat tail := by
      have := toNat_append [UInt8.ofNat (n % 256)] tail
      simp only [List.singleton_append] at this
      rw [this]
      simp [toNat, hd]
    rw [prependNat, ih, hc, List.length_cons, limit, limit, Nat.mul_comm (limit width) 256,
      Nat.mod_mul, Nat.add_mul, Nat.mul_comm (limit tail.length) 256, ← Nat.mul_assoc,
      Nat.add_left_comm, Nat.add_assoc, Nat.mul_comm (n / 256 % limit width) 256,
      ← Nat.add_assoc, Nat.add_comm (n % 256 * _), Nat.add_assoc]

theorem toNat_ofNat {width n : Nat} (h : n < limit width) : toNat (ofNat width n) = n := by
  rw [ofNat, toNat_prependNat, Nat.mod_eq_of_lt h]
  simp [toNat, limit]

end Bytes

end CredentialServer
