import CredentialServer.Json.Literal

/-!
# Values in JSON that nobody looks at

A value that is not wanted is checked for its form and skipped, however deeply it is nested: the
brackets that are open are kept on a stack. Strings in it need not be text. Every reader here only takes octets
off the front.
-/

namespace CredentialServer

namespace Json

/-- Whether an octet is one of the four blanks of the format. -/
def isBlankOctet (x : UInt8) : Bool := x == 0x20 || x == 0x0a || x == 0x09 || x == 0x0d

def dropBlanks (b : Bytes) : Bytes := b.dropWhile isBlankOctet

/-- Drops blanks and one octet, if it is the one that is expected. -/
def readMark? (mark : UInt8) (b : Bytes) : Option Bytes :=
  match dropBlanks b with
  | x :: rest => if x = mark then some rest else none
  | [] => none

/-- Skips the rest of a string behind its opening quote. -/
def skipString? : Bytes → Option Bytes
  | [] => none
  | x :: rest =>
    if x = 0x22 then some rest
    else if x < 0x20 then none
    else if x ≠ 0x5c then skipString? rest
    else match rest with
      | [] => none
      | e :: rest =>
        if e ≠ 0x75 then (if (shortEscape? e).isSome then skipString? rest else none)
        else match rest with
          | a :: b :: c :: d :: rest =>
            if (hexNumber? a b c d).isSome then skipString? rest else none
          | _ => none

def isDigit (x : UInt8) : Bool := 0x30 ≤ x && x ≤ 0x39

def skipDigits? : Bytes → Option Bytes
  | x :: rest => if isDigit x then some (rest.dropWhile isDigit) else none
  | [] => none

def skipExponent? : Bytes → Option Bytes
  | x :: rest =>
    if x = 0x65 ∨ x = 0x45 then
      match rest with
      | s :: more => if s = 0x2b ∨ s = 0x2d then skipDigits? more else skipDigits? rest
      | [] => none
    else some (x :: rest)
  | [] => some []

def skipFraction? : Bytes → Option Bytes
  | x :: rest =>
    if x = 0x2e then (skipDigits? rest).bind skipExponent? else skipExponent? (x :: rest)
  | [] => some []

/-- Skips a number without its sign; a leading zero stands alone. -/
def skipNumber? : Bytes → Option Bytes
  | x :: rest =>
    if x = 0x30 then
      match rest with
      | y :: _ => if isDigit y then none else skipFraction? rest
      | [] => some []
    else if isDigit x then skipFraction? (rest.dropWhile isDigit)
    else none
  | [] => none

/-- Skips a word that octets start with. -/
def skipWord? (word : String) (b : Bytes) : Option Bytes :=
  let w := Bytes.ofText word
  if w.isPrefixOf b then some (b.drop w.length) else none

/-- Skips a value without brackets. -/
def skipAtom? : Bytes → Option Bytes
  | [] => none
  | x :: rest =>
    if x = 0x22 then skipString? rest
    else if x = 0x2d then skipNumber? rest
    else if isDigit x then skipNumber? (x :: rest)
    else if x = 0x6e then skipWord? "null" (x :: rest)
    else if x = 0x74 then skipWord? "true" (x :: rest)
    else if x = 0x66 then skipWord? "false" (x :: rest)
    else none

/-- Skips a name and the colon behind it. -/
def skipName? (b : Bytes) : Option Bytes :=
  ((readMark? 0x22 b).bind skipString?).bind (readMark? 0x3a)

/-- Goes on skipping with `stack` the open brackets, innermost first (true for a table): before a
value if `before` is set, else behind one. Each step takes an octet, so `fuel` is their number. -/
def skipFrom : Nat → Bool → List Bool → Bytes → Option Bytes
  | 0, before, stack, b => if before || !stack.isEmpty then none else some b
  | fuel + 1, true, stack, b =>
    match dropBlanks b with
    | [] => none
    | x :: rest =>
      if x = 0x5b then
        match readMark? 0x5d rest with
        | some rest => skipFrom fuel false stack rest
        | none => skipFrom fuel true (false :: stack) rest
      else if x = 0x7b then
        match readMark? 0x7d rest with
        | some rest => skipFrom fuel false stack rest
        | none =>
          match skipName? rest with
          | some rest => skipFrom fuel true (true :: stack) rest
          | none => none
      else
        match skipAtom? (x :: rest) with
        | some rest => skipFrom fuel false stack rest
        | none => none
  | _ + 1, false, [], b => some b
  | fuel + 1, false, table :: stack, b =>
    match dropBlanks b with
    | [] => none
    | x :: rest =>
      if x = 0x2c then
        if table then
          match skipName? rest with
          | some rest => skipFrom fuel true (table :: stack) rest
          | none => none
        else skipFrom fuel true (table :: stack) rest
      else if x = (if table then 0x7d else 0x5d) then skipFrom fuel false stack rest
      else none

def skip? (b : Bytes) : Option Bytes := skipFrom (b.length + 1) true [] b

end Json

end CredentialServer
