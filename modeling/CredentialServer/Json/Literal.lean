import CredentialServer.Bytes

/-!
# Strings in JSON

A string stands between quotes, its octets as they are except for quotes, backslashes and controls.
Reading also takes the other escapes of the format; a number of a code point must be one, if need
be as a pair of surrogates. Main statement: `readString?_encodeString` (what was written is read
back, and what follows it is left over).
-/

namespace CredentialServer

namespace Json

/-- A hexadecimal digit, lower case. -/
def hexOctet (n : Nat) : UInt8 := UInt8.ofNat (if n < 10 then 48 + n else 87 + n)

/-- How a string shows an octet. -/
def escape (x : UInt8) : Bytes :=
  if x = 0x22 then [0x5c, 0x22]
  else if x = 0x5c then [0x5c, 0x5c]
  else if x = 0x08 then [0x5c, 0x62]
  else if x = 0x0c then [0x5c, 0x66]
  else if x = 0x0a then [0x5c, 0x6e]
  else if x = 0x0d then [0x5c, 0x72]
  else if x = 0x09 then [0x5c, 0x74]
  else if x < 0x20 then
    [0x5c, 0x75, 0x30, 0x30, hexOctet (x.toNat / 16), hexOctet (x.toNat % 16)]
  else [x]

def encodeString (b : Bytes) : Bytes := 0x22 :: b.flatMap escape ++ [0x22]

def hexValue? (x : UInt8) : Option Nat :=
  let n := x.toNat
  if 48 ≤ n ∧ n ≤ 57 then some (n - 48)
  else if 65 ≤ n ∧ n ≤ 70 then some (n - 55)
  else if 97 ≤ n ∧ n ≤ 102 then some (n - 87)
  else none

/-- The number that four hexadecimal digits write. -/
def hexNumber? (a b c d : UInt8) : Option Nat :=
  match hexValue? a, hexValue? b, hexValue? c, hexValue? d with
  | some a, some b, some c, some d => some (((a * 16 + b) * 16 + c) * 16 + d)
  | _, _, _, _ => none

/-- The octet that a backslash and another octet stand for. -/
def shortEscape? (x : UInt8) : Option UInt8 :=
  if x = 0x22 ∨ x = 0x5c ∨ x = 0x2f then some x
  else if x = 0x62 then some 0x08
  else if x = 0x66 then some 0x0c
  else if x = 0x6e then some 0x0a
  else if x = 0x72 then some 0x0d
  else if x = 0x74 then some 0x09
  else none

/-- The octets of a code point, last octet first. -/
def codePoint (n : Nat) : Bytes := (String.utf8EncodeChar (Char.ofNat n)).reverse

/-- Reads the rest of a string; `done` are its octets so far, last octet first. -/
def readRest (done : Bytes) : Bytes → Option (Bytes × Bytes)
  | [] => none
  | x :: rest =>
    if x = 0x22 then some (done.reverse, rest)
    else if x < 0x20 then none
    else if x ≠ 0x5c then readRest (x :: done) rest
    else match rest with
      | [] => none
      | e :: rest =>
        if e ≠ 0x75 then
          match shortEscape? e with
          | some y => readRest (y :: done) rest
          | none => none
        else match rest with
          | a :: b :: c :: d :: rest =>
            match hexNumber? a b c d with
            | none => none
            | some n =>
              if n < 0xd800 ∨ 0xe000 ≤ n then readRest (codePoint n ++ done) rest
              else if 0xdc00 ≤ n then none
              else match rest with
                | s :: u :: a :: b :: c :: d :: rest =>
                  match hexNumber? a b c d with
                  | none => none
                  | some m =>
                    if s = 0x5c ∧ u = 0x75 ∧ 0xdc00 ≤ m ∧ m < 0xe000 then
                      readRest
                        (codePoint (0x10000 + (n - 0xd800) * 0x400 + (m - 0xdc00)) ++ done) rest
                    else none
                | _ => none
          | _ => none

/-- Reads a string: its octets, which need not be text. -/
def readOctets? : Bytes → Option (Bytes × Bytes)
  | [] => none
  | x :: rest => if x = 0x22 then readRest [] rest else none

def readString? (b : Bytes) : Option (String × Bytes) :=
  match readOctets? b with
  | some (octets, rest) => (Bytes.toText? octets).map (fun s => (s, rest))
  | none => none

theorem readRest_short {e y : UInt8} (he : e ≠ 0x75) (hs : shortEscape? e = some y)
    (done rest : Bytes) : readRest done (0x5c :: e :: rest) = readRest (y :: done) rest := by
  rw [readRest.eq_def]
  simp [he, hs]

/-- Reading goes on behind the number of a code point that is no surrogate. -/
theorem readRest_number {a b c d : UInt8} {n : Nat} (hn : hexNumber? a b c d = some n)
    (hs : n < 0xd800) (done rest : Bytes) :
    readRest done (0x5c :: 0x75 :: a :: b :: c :: d :: rest) =
      readRest (codePoint n ++ done) rest := by
  rw [readRest.eq_def]
  simp [hn, hs]

theorem readRest_plain {x : UInt8} (hq : x ≠ 0x22) (hb : x ≠ 0x5c) (hc : ¬x < 0x20)
    (done rest : Bytes) : readRest done (x :: rest) = readRest (x :: done) rest := by
  rw [readRest.eq_def]
  simp [hq, hb, hc]

theorem control_number {x : UInt8} (h : x < 0x20) :
    hexNumber? 0x30 0x30 (hexOctet (x.toNat / 16)) (hexOctet (x.toNat % 16)) = some x.toNat ∧
      codePoint x.toNat = [x] := by
  have all : ∀ n : Fin 32,
      hexNumber? 0x30 0x30 (hexOctet (n.val / 16)) (hexOctet (n.val % 16)) = some n.val ∧
        codePoint n.val = [UInt8.ofNat n.val] := by decide +kernel
  have hlt : x.toNat < 32 := UInt8.lt_iff_toNat_lt.1 h
  have := all ⟨x.toNat, hlt⟩
  simpa using this

theorem readRest_escape (done : Bytes) (x : UInt8) (rest : Bytes) :
    readRest done (escape x ++ rest) = readRest (x :: done) rest := by
  simp only [escape]
  by_cases h1 : x = 0x22
  · subst h1; exact readRest_short (by decide) (by decide) done rest
  by_cases h2 : x = 0x5c
  · subst h2; exact readRest_short (by decide) (by decide) done rest
  by_cases h3 : x = 0x08
  · subst h3; exact readRest_short (by decide) (by decide) done rest
  by_cases h4 : x = 0x0c
  · subst h4; exact readRest_short (by decide) (by decide) done rest
  by_cases h5 : x = 0x0a
  · subst h5; exact readRest_short (by decide) (by decide) done rest
  by_cases h6 : x = 0x0d
  · subst h6; exact readRest_short (by decide) (by decide) done rest
  by_cases h7 : x = 0x09
  · subst h7; exact readRest_short (by decide) (by decide) done rest
  simp only [h1, h2, h3, h4, h5, h6, h7, if_false]
  by_cases h8 : x < 0x20
  · obtain ⟨hn, hc⟩ := control_number h8
    have hlt : x.toNat < 0xd800 := by
      have := x.toNat_lt
      omega
    rw [if_pos h8]
    have := readRest_number hn hlt done rest
    rw [hc] at this
    exact this
  · rw [if_neg h8]
    exact readRest_plain h1 h2 h8 done rest

theorem readOctets?_encodeString (b rest : Bytes) :
    readOctets? (encodeString b ++ rest) = some (b, rest) := by
  have key : ∀ (b done : Bytes), readRest done (b.flatMap escape ++ 0x22 :: rest) =
      some (done.reverse ++ b, rest) := by
    intro b
    induction b with
    | nil =>
      intro done
      rw [List.flatMap_nil, List.nil_append, readRest.eq_def]
      simp
    | cons x b ih =>
      intro done
      rw [List.flatMap_cons, List.append_assoc, readRest_escape, ih]
      simp
  have := key b []
  simpa [readOctets?, encodeString] using this

/-- What was written is read back, and what follows it is left over. -/
theorem readString?_encodeString (s : String) (rest : Bytes) :
    readString? (encodeString (Bytes.ofText s) ++ rest) = some (s, rest) := by
  simp [readString?, readOctets?_encodeString, Bytes.toText?_ofText]

end Json

end CredentialServer
