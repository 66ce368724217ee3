import CredentialServer.Text.Quoted
import CredentialServer.Bytes

/-!
# Network addresses

An address is 32 or 128 bits. Its text is four decimal numbers, or eight groups of hexadecimal
digits of which one run of zero groups may be left out and the last two may be written as four
decimal numbers. `canonical` reads an IPv4 address embedded in IPv6 as that IPv4 address.
-/

namespace CredentialServer

/-- A network address. -/
inductive Address where
  | v4 (bits : BitVec 32)
  | v6 (bits : BitVec 128)
  deriving DecidableEq, Repr

/-- An address and a port. -/
structure Endpoint where
  address : Address
  port : Nat
  deriving DecidableEq, Repr

namespace Address

/-- The address with an embedded IPv4 address taken out. -/
def canonical : Address → Address
  | .v4 bits => .v4 bits
  | .v6 bits => if bits >>> 32 = 0xffff then .v4 (bits.truncate 32) else .v6 bits

@[simp] theorem canonical_v4 (bits : BitVec 32) : canonical (.v4 bits) = .v4 bits := rfl

/-- The octets of an address, most significant first. -/
def octets : Address → Bytes
  | .v4 bits => Bytes.ofNat 4 bits.toNat
  | .v6 bits => Bytes.ofNat 16 bits.toNat

/-! ### Reading -/

/-- The value of a digit in a base up to sixteen. -/
def digitValue? (base : Nat) (c : Char) : Option Nat :=
  let n := c.toNat
  let v := if 48 ≤ n ∧ n ≤ 57 then n - 48
    else if 97 ≤ n ∧ n ≤ 102 then n - 87
    else if 65 ≤ n ∧ n ≤ 70 then n - 55
    else 16
  if v < base then some v else none

/-- Reads the digits at the head of a text: a number of at most `width` digits, not above
`limit`. -/
def readNumber (base limit : Nat) (width : Option Nat) (leadingZeros : Bool) (s : List Char) :
    Option (Nat × List Char) :=
  let digits := s.takeWhile (fun c => (digitValue? base c).isSome)
  let value := digits.foldl (fun n c => n * base + (digitValue? base c).getD 0) 0
  if digits = [] ∨ width.any (· < digits.length) ∨ limit < value ∨
      (leadingZeros = false ∧ digits.head? = some '0' ∧ 1 < digits.length) then none
  else some (value, s.drop digits.length)

def readChar (c : Char) : List Char → Option (List Char)
  | [] => none
  | x :: rest => if x = c then some rest else none

/-- Reads four decimal numbers between dots. -/
def readV4 (s : List Char) : Option (BitVec 32 × List Char) := do
  let number := readNumber 10 255 (some 3) false
  let (a, s) ← number s
  let s ← readChar '.' s
  let (b, s) ← number s
  let s ← readChar '.' s
  let (c, s) ← number s
  let s ← readChar '.' s
  let (d, s) ← number s
  return (BitVec.ofNat 32 (((a * 256 + b) * 256 + c) * 256 + d), s)

/-- Reads a separator unless this is the first item, then the item. -/
def readItem (first : Bool) (item : List Char → Option (α × List Char)) (s : List Char) :
    Option (α × List Char) :=
  if first then item s else (readChar ':' s).bind item

/-- The groups at the head of a text, at most `room` of them, whether the last two were written as
four decimal numbers, and the rest of the text. -/
def readGroups : Nat → Bool → List Char → List Nat × Bool × List Char
  | 0, _, s => ([], false, s)
  | room + 1, first, s =>
    match if room = 0 then none else readItem first readV4 s with
    | some (bits, rest) => ([bits.toNat / 65536, bits.toNat % 65536], true, rest)
    | none =>
      match readItem first (readNumber 16 65535 (some 4) true) s with
      | none => ([], false, s)
      | some (group, rest) =>
        let (groups, decimal, rest) := readGroups room false rest
        (group :: groups, decimal, rest)

/-- The IPv6 address with these eight groups. -/
def ofGroups (groups : List Nat) : BitVec 128 :=
  BitVec.ofNat 128 (groups.foldl (fun n g => n * 65536 + g) 0)

def readV6 (s : List Char) : Option (BitVec 128 × List Char) :=
  let (head, decimal, rest) := readGroups 8 true s
  if head.length = 8 then some (ofGroups head, rest)
  else if decimal then none
  else match rest with
    | ':' :: ':' :: rest =>
      let (tail, _, rest) := readGroups (7 - head.length) true rest
      some (ofGroups (head ++ List.replicate (8 - head.length - tail.length) 0 ++ tail), rest)
    | _ => none

/-- The address that a text denotes. -/
def parse? (s : String) : Option Address :=
  match readV4 s.toList with
  | some (bits, []) => some (.v4 bits)
  | some _ => none
  | none =>
    match readV6 s.toList with
    | some (bits, []) => some (.v6 bits)
    | _ => none

/-! ### Writing -/

def groups (bits : BitVec 128) : List Nat :=
  (List.range 8).map (fun i => (bits.toNat >>> (16 * (7 - i))) % 65536)

/-- Groups in hexadecimal between colons. -/
def groupText (groups : List Nat) : String :=
  String.intercalate ":" (groups.map (fun g => String.ofList (hexDigits g)))

/-- The length of the run of zeros at the head of a list. -/
def zeroRun (groups : List Nat) : Nat := (groups.takeWhile (· = 0)).length

/-- Where the longest run of zeros starts, and its length; of equally long runs the first. -/
def longestZeroRun (groups : List Nat) : Nat × Nat :=
  (List.range groups.length).foldl (fun best i =>
    let n := zeroRun (groups.drop i)
    if best.2 < n then (i, n) else best) (0, 0)

/-- Four decimal numbers between dots. -/
def textV4 (bits : BitVec 32) : String :=
  let n := bits.toNat
  String.intercalate "."
    [toString (n / 16777216), toString (n / 65536 % 256), toString (n / 256 % 256),
      toString (n % 256)]

/-- The usual text of an address: the longest run of two or more zero groups is left out, and an
embedded IPv4 address is written in decimal. -/
def text : Address → String
  | .v4 bits => textV4 bits
  | .v6 bits =>
    if bits >>> 32 = 0xffff then "::ffff:" ++ textV4 (bits.truncate 32)
    else
      let groups := groups bits
      let (start, length) := longestZeroRun groups
      if 1 < length then
        groupText (groups.take start) ++ "::" ++ groupText (groups.drop (start + length))
      else groupText groups

end Address

namespace Endpoint

def readPort (s : List Char) : Option (Nat × List Char) :=
  (Address.readChar ':' s).bind (Address.readNumber 10 65535 none true)

/-- Reads an IPv6 address in square brackets, perhaps with a numeric zone after a percent sign. -/
def readBracketed (s : List Char) : Option (BitVec 128 × List Char) := do
  let s ← Address.readChar '[' s
  let (bits, s) ← Address.readV6 s
  let s := match (Address.readChar '%' s).bind (Address.readNumber 10 4294967295 none true) with
    | some (_, rest) => rest
    | none => s
  let s ← Address.readChar ']' s
  return (bits, s)

/-- The endpoint that a text denotes: an address and a port, an IPv6 address in brackets. -/
def parse? (s : String) : Option Endpoint :=
  match (Address.readV4 s.toList).bind (fun (bits, rest) =>
      (readPort rest).map (fun (port, rest) => (Endpoint.mk (.v4 bits) port, rest))) with
  | some (e, []) => some e
  | some _ => none
  | none =>
    match (readBracketed s.toList).bind (fun (bits, rest) =>
        (readPort rest).map (fun (port, rest) => (Endpoint.mk (.v6 bits) port, rest))) with
    | some (e, []) => some e
    | _ => none

end Endpoint

end CredentialServer
