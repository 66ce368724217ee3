import CredentialServer.Bytes

/-!
# Distinguished encoding

A value is written as a tag, the length of its content and the content. A length below 128 is one
octet; a longer one is announced by the number of its octets. A reader may insist on the shortest
form of the length or take any.
-/

namespace CredentialServer

namespace Der

/-- A value as it stands in its encoding. -/
structure Element where
  /-- The identifier octet: class, form and number. -/
  tag : UInt8
  /-- The content octets. -/
  content : Bytes
  /-- The whole encoding. -/
  raw : Bytes
  deriving DecidableEq, Repr

/-- Which lengths a reader takes. -/
inductive Lengths where
  | shortest
  | any
  deriving DecidableEq, Repr

/-! ### The tags of the universal types -/

abbrev boolean : UInt8 := 0x01

abbrev integer : UInt8 := 0x02

abbrev bitString : UInt8 := 0x03

abbrev octetString : UInt8 := 0x04

abbrev null : UInt8 := 0x05

abbrev objectIdentifier : UInt8 := 0x06

abbrev utf8String : UInt8 := 0x0c

abbrev sequence : UInt8 := 0x30

abbrev set : UInt8 := 0x31

/-- The tag of times whose year has two digits. -/
abbrev utcTime : UInt8 := 0x17

/-- The tag of times whose year has four digits. -/
abbrev generalizedTime : UInt8 := 0x18

/-! ### Tags that depend on the context -/

/-- A tag of the class that depends on the context, around constructed content. -/
def explicitTag (n : UInt8) : UInt8 := 0xa0 ||| n

/-- A tag of the class that depends on the context, around primitive content. -/
def implicitTag (n : UInt8) : UInt8 := 0x80 ||| n

/-! ### Writing and reading -/

def encodeLength (n : Nat) : Bytes :=
  if n < 128 then [UInt8.ofNat n] else UInt8.ofNat (128 + Bytes.widthOf n) :: Bytes.minimal n

/-- The encoding of a value with this tag and content. -/
def encode (tag : UInt8) (content : Bytes) : Bytes :=
  tag :: encodeLength content.length ++ content

def readLength? (lengths : Lengths) : Bytes → Option (Nat × Bytes)
  | [] => none
  | x :: rest =>
    let n := x.toNat
    if n < 128 then some (n, rest)
    else if n = 128 ∨ n = 255 ∨ rest.length < n - 128 then none
    else
      let digits := rest.take (n - 128)
      let value := Bytes.toNat digits
      if UInt64.size ≤ value then none
      else if lengths = .shortest ∧ (value < 128 ∨ digits.head? = some 0) then none
      else some (value, rest.drop (n - 128))

/-- Reads the value at the head of some octets. Tags of more than one octet are refused. -/
def read? (lengths : Lengths) : Bytes → Option (Element × Bytes)
  | [] => none
  | tag :: rest =>
    if tag &&& 0x1f = 0x1f then none
    else match readLength? lengths rest with
      | none => none
      | some (n, body) =>
        if body.length < n then none
        else
          let size := 1 + (rest.length - body.length) + n
          some (⟨tag, body.take n, (tag :: rest).take size⟩, body.drop n)

/-- Reads the value at the head of some octets if it has a given tag. -/
def readTag? (lengths : Lengths) (tag : UInt8) (b : Bytes) : Option (Bytes × Bytes) :=
  match read? lengths b with
  | some (e, rest) => if e.tag = tag then some (e.content, rest) else none
  | none => none

/-- Reads at most `count` values, up to the end of the octets. -/
def readUpTo (lengths : Lengths) : Nat → Bytes → Option (List Element)
  | _, [] => some []
  | 0, _ :: _ => none
  | count + 1, b =>
    match read? lengths b with
    | none => none
    | some (e, rest) => (readUpTo lengths count rest).map (e :: ·)

/-- The values that some octets are made of. -/
def readAll? (lengths : Lengths) (b : Bytes) : Option (List Element) :=
  readUpTo lengths b.length b

/-- What a step makes of the values at the head of some octets, up to the first one that it cannot
read; `count` bounds their number. -/
def leading (lengths : Lengths) (step : Element → Option α) : Nat → Bytes → List α
  | 0, _ => []
  | count + 1, b =>
    match read? lengths b with
    | none => []
    | some (e, rest) =>
      match step e with
      | none => []
      | some a => a :: leading lengths step count rest

/-- Reads a value that is all there is. -/
def readOnly? (lengths : Lengths) (tag : UInt8) (b : Bytes) : Option Bytes :=
  match readTag? lengths tag b with
  | some (content, []) => some content
  | _ => none

/-- Octets as the content of a number that is not negative and has no needless leading zero. -/
def natural? (content : Bytes) : Option Nat :=
  match content with
  | [] => none
  | [x] => if x.toNat < 128 then some x.toNat else none
  | x :: y :: _ =>
    if x.toNat < 128 ∧ (x = 0 → 128 ≤ y.toNat) then some (Bytes.toNat content) else none

/-- Reads a number that is not negative. -/
def readNatural? (lengths : Lengths) (b : Bytes) : Option (Nat × Bytes) :=
  match readTag? lengths integer b with
  | some (content, rest) => (natural? content).map (fun n => (n, rest))
  | none => none

/-- The content of a number that is not negative: its octets, behind a zero if they are none or the
top bit is set. -/
def naturalContent (n : Nat) : Bytes :=
  let digits := Bytes.minimal n
  if digits.headD 128 ≥ 128 then 0 :: digits else digits

/-- The encoding of a number that is not negative. -/
def encodeNatural (n : Nat) : Bytes := encode integer (naturalContent n)

/-- The encoding of a whole number of octets as a string of bits. -/
def encodeBits (b : Bytes) : Bytes := encode bitString (0 :: b)

/-- The octets in the content of a string of bits, of whose last one some low bits may be unused and
are zero then. -/
def bits? : Bytes → Option Bytes
  | [] => none
  | unused :: octets =>
    match octets.getLast? with
    | none => if unused = 0 then some [] else none
    | some last =>
      if unused ≤ 8 ∧ last.toNat % (1 <<< unused.toNat) = 0 then some octets else none

end Der

end CredentialServer
