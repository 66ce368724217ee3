import CredentialServer.Text.Base64
import CredentialServer.Text.Split

/-!
# Armoured text

Octets are armoured as base 64 between a BEGIN and an END line with a label. Three readers differ
in what they let stand around and inside the armour:

* `scan?` goes line by line, takes the first BEGIN line and drops blanks at the ends of lines;
* `find?` takes the first BEGIN anywhere and wants the two labels to agree;
* `strict?` takes one block at the end of a text, in lines of one width.

Main definition: `write` is the armour with lines of 64 digits.
-/

namespace CredentialServer

namespace Pem

/-- A label with the octets under it. -/
structure Block where
  label : List Char
  content : Bytes
  deriving DecidableEq, Repr

def dashes : List Char := ['-', '-', '-', '-', '-']

/-- What stands before a label in a first line. -/
def opening : List Char := "-----BEGIN ".toList

/-- What stands before a label in a last line. -/
def closing : List Char := "-----END ".toList

/-- Cuts a text at the first occurrence of a part, which is dropped. -/
def cutFrom (before part : List Char) : List Char → Option (List Char × List Char)
  | [] => if part.isEmpty then some (before.reverse, []) else none
  | c :: rest =>
    if part.isPrefixOf (c :: rest) then some (before.reverse, (c :: rest).drop part.length)
    else cutFrom (c :: before) part rest

/-- Cuts a text at the first occurrence of a part, which is dropped. -/
def cut (part s : List Char) : Option (List Char × List Char) := cutFrom [] part s

/-! ### Line by line -/

/-- The label in a first line. -/
def labelOfLine? (line : List Char) : Option (List Char) :=
  match cut dashes (line.drop opening.length) with
  | some (label, _) => some label
  | none => none

/-- Collects the lines up to the END line. -/
def collect (digits : List (List Char)) : List Bytes → Option (List Char)
  | [] => none
  | line :: rest =>
    match Bytes.toText? line with
    | none => none
    | some text =>
      let line := text.toList
      if closing.isPrefixOf line then some digits.reverse.flatten
      else collect (trimEnd line :: digits) rest

/-- The first block of a list of lines. -/
def scanLines : List Bytes → Option Block
  | [] => none
  | line :: rest =>
    match Bytes.toText? line with
    | none => none
    | some text =>
      if opening.isPrefixOf text.toList then do
        let label ← labelOfLine? text.toList
        let digits ← collect [] rest
        let content ← Base64.standard.decodePadded? digits
        return ⟨label, content⟩
      else scanLines rest

/-- The first block that starts a line. Lines are text up to the one that ends the block. -/
def scan? (b : Bytes) : Option Block := scanLines (pieces 10 b)

/-! ### Anywhere -/

/-- Drops blanks of the ASCII kinds. -/
def skipBlanks (s : List Char) : List Char :=
  s.dropWhile (fun c => c = ' ' ∨ c = '\t' ∨ c = '\n' ∨ c = '\r')

/-- The part of a body behind headers, which end with an empty line and have a colon each. -/
def behindHeaders? (body : List Char) : Option (List Char) :=
  let check (headers rest : List Char) : Option (List Char) :=
    if (pieces '\n' headers).all (·.contains ':') then some rest else none
  match cut ['\n', '\n'] body with
  | some (headers, rest) => check headers rest
  | none =>
    match cut ['\r', '\n', '\r', '\n'] body with
    | some (headers, rest) => check headers rest
    | none => some body

/-- The first block of a text, wherever it starts. -/
def find? (s : List Char) : Option Block := do
  let (_, s) ← cut opening s
  let (label, s) ← cut dashes s
  let (body, s) ← cut closing (skipBlanks s)
  let (label', _) ← cut dashes s
  guard (label ≠ [] ∧ label = label')
  let body ← behindHeaders? body
  let content ← Base64.standard.decodePadded? ((pieces '\n' body).map trimEnd).flatten
  return ⟨label, content⟩

/-! ### Exactly -/

def dropEol? : List Char → Option (List Char)
  | '\r' :: '\n' :: rest => some rest
  | '\r' :: rest => some rest
  | '\n' :: rest => some rest
  | _ => none

/-- Drops one end of line at the end of a text that is written backwards. -/
def dropEolBackwards? : List Char → Option (List Char)
  | '\n' :: '\r' :: rest => some rest
  | '\r' :: rest => some rest
  | '\n' :: rest => some rest
  | _ => none

/-- Drops a part that a text starts with. -/
def dropPart? (part s : List Char) : Option (List Char) :=
  if part.isPrefixOf s then some (s.drop part.length) else none

/-- Drops what stands before the first BEGIN that starts a text or follows a line feed. A NUL before
it is refused. -/
def dropPreamble? (atStart : Bool) : List Char → Option (List Char)
  | [] => none
  | c :: rest =>
    if atStart && opening.isPrefixOf (c :: rest) then some ((c :: rest).drop opening.length)
    else if c = '\x00' then none
    else dropPreamble? (c == '\n') rest

/-- Whether a character may stand in a label. -/
def isLabelChar (c : Char) : Bool := c = ' ' || (0x21 ≤ c.toNat && c.toNat ≤ 0x7e && c ≠ '-')

/-- The digits of a body in lines of one width, the last of which may be shorter. -/
def joinLines (width : Nat) (count : Nat) (s : List Char) : Option (List Char) :=
  match count with
  | 0 => none
  | count + 1 =>
    match s.drop width with
    | [] => some s
    | c :: rest =>
      match dropEol? (c :: rest) with
      | some [] => some (s.take width)
      | some rest => (joinLines width count rest).map (s.take width ++ ·)
      | none => none

/-- The block that a text ends with, in lines of `width` digits. -/
def strict? (width : Nat) (s : List Char) : Option Block := do
  let s ← dropPreamble? true s
  let label := s.takeWhile isLabelChar
  let s ← dropPart? dashes (s.drop label.length)
  let body ← dropEol? s
  let back := body.reverse
  let back := (dropEolBackwards? back).getD back
  let back ← dropPart? dashes back
  let back ← dropPart? label.reverse back
  let back ← dropPart? closing.reverse back
  let back ← dropEolBackwards? back
  let digits ← joinLines width (back.length + 1) back.reverse
  let content ← Base64.standard.decodePadded? digits
  return ⟨label, content⟩

/-! ### Writing -/

/-- A text cut into lines of `width` characters, each ended by a line feed. -/
def wrap (width : Nat) (count : Nat) (s : List Char) : List Char :=
  match count with
  | 0 => []
  | count + 1 =>
    if s.isEmpty then [] else s.take width ++ '\n' :: wrap width count (s.drop width)

/-- The armour around some octets, in lines of 64 digits. -/
def write (label : String) (content : Bytes) : String :=
  let digits := Base64.standard.encodePadded content
  "-----BEGIN " ++ label ++ "-----\n" ++ String.ofList (wrap 64 (digits.length + 1) digits) ++
    "-----END " ++ label ++ "-----\n"

end Pem

end CredentialServer
