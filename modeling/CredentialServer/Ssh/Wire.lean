import CredentialServer.Bytes

/-!
# Strings on the wire

Values are written one after the other: numbers in four or eight octets, and strings of octets
behind their length in four, which readers limit to a mebibyte. Main statement:
`readString?_encode` (a string is read back and what follows it is left over).
-/

namespace CredentialServer

namespace Ssh

/-- A string of octets behind its length. -/
def encodeString (b : Bytes) : Bytes := Bytes.ofNat 4 b.length ++ b

def encodeText (s : String) : Bytes := encodeString (Bytes.ofText s)

def readNat? (width : Nat) (b : Bytes) : Option (Nat × Bytes) :=
  (Bytes.splitAt? width b).map (fun r => (Bytes.toNat r.1, r.2))

/-- How long the strings are that can be read. -/
def longest : Nat := 0xfffff

/-- Reads a string of octets, unless it is too long. -/
def readString? (b : Bytes) : Option (Bytes × Bytes) :=
  (readNat? 4 b).bind (fun r => if r.1 ≤ longest then Bytes.splitAt? r.1 r.2 else none)

def readText? (b : Bytes) : Option (String × Bytes) :=
  (readString? b).bind (fun r => (Bytes.toText? r.1).map (fun s => (s, r.2)))

/-- Reads the octets of a number that may be negative; a leading zero must be needed. -/
def readSigned? (b : Bytes) : Option (Bytes × Bytes) :=
  (readString? b).bind (fun (digits, rest) =>
    match digits with
    | [0] => none
    | 0 :: x :: _ => if x < 0x80 then none else some (digits, rest)
    | _ => some (digits, rest))

/-- Reads texts up to the end. -/
def readTexts? : Nat → Bytes → Option (List String)
  | _, [] => some []
  | 0, _ :: _ => none
  | count + 1, b =>
    (readText? b).bind (fun (s, rest) => (readTexts? count rest).map (s :: ·))

/-- The octets of a number that is not negative, behind a zero if the top bit is set. -/
def signedOctets (n : Nat) : Bytes :=
  let digits := Bytes.minimal n
  if digits.headD 0 < 0x80 then digits else 0 :: digits

/-- A positive number from octets that write one. -/
def positive? (b : Bytes) : Option Nat :=
  match b with
  | [] => none
  | x :: _ => if x < 0x80 then some (Bytes.toNat b) else none

theorem splitAt?_append (a b : Bytes) : Bytes.splitAt? a.length (a ++ b) = some (a, b) := by
  simp [Bytes.splitAt?]

theorem readNat?_ofNat {width n : Nat} (h : n < Bytes.limit width) (rest : Bytes) :
    readNat? width (Bytes.ofNat width n ++ rest) = some (n, rest) := by
  have hs : Bytes.splitAt? width (Bytes.ofNat width n ++ rest) =
      some (Bytes.ofNat width n, rest) := by
    have := splitAt?_append (Bytes.ofNat width n) rest
    rwa [Bytes.length_ofNat] at this
  simp [readNat?, hs, Bytes.toNat_ofNat h]

theorem readString?_encode {b : Bytes} (h : b.length ≤ longest) (rest : Bytes) :
    readString? (encodeString b ++ rest) = some (b, rest) := by
  have h4 : b.length < Bytes.limit 4 := Nat.lt_of_le_of_lt h (by decide)
  rw [readString?, encodeString, List.append_assoc, readNat?_ofNat h4, Option.bind_some, if_pos h]
  exact splitAt?_append b rest

end Ssh

end CredentialServer
