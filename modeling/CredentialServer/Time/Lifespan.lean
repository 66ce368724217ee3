import CredentialServer.Text.Quoted
import CredentialServer.Text.Split
import CredentialServer.Time.Instant

/-!
# Lifespans

A configured lifespan is a row of amounts, each a decimal number with a unit, such as `1h 30m` or
`1.5 days`. Blanks may stand anywhere except inside a unit. An amount is exact: one that is no
whole number of nanoseconds, or in the larger units of seconds, is refused, as is one whose parts
leave 64 bits. A lone `0` needs no unit. Positions in errors count octets. Main definitions:
`Lifespan.parse` is a run of `Lifespan.step` over the characters.
-/

namespace CredentialServer

namespace Lifespan

/-- Why a text is no lifespan. -/
inductive ParseError where
  | invalidCharacter (position : Nat)
  | numberExpected (position : Nat)
  | unitMissing (amount : Nat)
  | unitUnknown (unit : String)
  | unrepresentable
  | blank
  deriving DecidableEq, Repr

def ParseError.message : ParseError → String
  | .invalidCharacter position => s!"invalid character at {position}"
  | .numberExpected position => s!"expected number at {position}"
  | .unitMissing amount => s!"time unit needed, for example {amount}sec or {amount}ms"
  | .unitUnknown unit =>
    "unknown time unit " ++ quoted unit ++ ", supported units: ns, us/µs, ms, sec, min, " ++
      "hours, days, weeks, months, years (and few variations)"
  | .unrepresentable =>
    "number is too large or cannot be represented without a lack of precision " ++
      "(values below 1ns are not supported)"
  | .blank => "value was empty"

/-- What one unit is worth. -/
structure Worth where
  seconds : Nat
  nanos : Nat

/-- A unit: what a whole one is worth, and what a fraction of one is computed from. -/
structure Measure where
  whole : Worth
  fraction : Option Worth

/-- A unit of so many nanoseconds, whole or in part. -/
def Measure.ofNanos (n : Nat) : Measure := ⟨⟨0, n⟩, some ⟨0, n⟩⟩

/-- A unit of so many seconds, whole or in part. -/
def Measure.ofSeconds (n : Nat) : Measure := ⟨⟨n, 0⟩, some ⟨n, 0⟩⟩

/-- The units by name. A month is 30.44 days and a year 365.25 days. -/
def measure? (unit : String) : Option Measure :=
  if unit ∈ ["nanos", "nsec", "ns"] then some ⟨⟨0, 1⟩, none⟩
  else if unit ∈ ["usec", "us", "µs"] then some (.ofNanos 1000)
  else if unit ∈ ["millis", "msec", "ms"] then some (.ofNanos 1000000)
  else if unit ∈ ["seconds", "second", "secs", "sec", "s"] then
    some ⟨⟨1, 0⟩, some ⟨0, 1000000000⟩⟩
  else if unit ∈ ["minutes", "minute", "min", "mins", "m"] then
    some ⟨⟨60, 0⟩, some ⟨0, 60000000000⟩⟩
  else if unit ∈ ["hours", "hour", "hrs", "hr", "h"] then some (.ofSeconds 3600)
  else if unit ∈ ["days", "day", "d"] then some (.ofSeconds 86400)
  else if unit ∈ ["weeks", "week", "wk", "wks", "w"] then some (.ofSeconds 604800)
  else if unit ∈ ["months", "month", "M"] then some (.ofSeconds 2630016)
  else if unit ∈ ["years", "year", "yrs", "yr", "y"] then some (.ofSeconds 31557600)
  else none

/-- The part of an amount behind its point. -/
structure Fraction where
  numerator : Nat
  denominator : Nat

/-- Where a reader is in a row of amounts. -/
inductive State where
  /-- Before a number, since a position; `seen` says whether an amount came before. -/
  | gap (since : Nat) (seen : Bool)
  /-- In the digits before a point. -/
  | whole (amount : Nat)
  /-- Behind a point; `anchor` is the position that an error names. -/
  | fraction (amount : Nat) (part : Fraction) (anchor : Nat)
  /-- In the letters of a unit, last letter first. -/
  | unit (amount : Nat) (part : Option Fraction) (letters : List Char)

/-- A number if it fits 64 bits. -/
def fits (n : Nat) : Except ParseError Nat :=
  if n < UInt64.size then .ok n else .error .unrepresentable

/-- A quotient if it is exact. -/
def exact (n d : Nat) : Except ParseError Nat :=
  if n % d = 0 then .ok (n / d) else .error .unrepresentable

/-- A span and more seconds and nanoseconds. -/
def extend (total : Span) (seconds nanos : Nat) : Except ParseError Span :=
  if total.nanos + nanos < UInt64.size then
    match Span.ofParts? (total.seconds + seconds + (total.nanos + nanos) / nanosPerSecond)
        ((total.nanos + nanos) % nanosPerSecond) with
    | some span => .ok span
    | none => .error .unrepresentable
  else .error .unrepresentable

/-- Adds an amount of a unit to a span. -/
def addAmount (total : Span) (amount : Nat) (part : Option Fraction) (letters : List Char) :
    Except ParseError Span := do
  let unit := String.ofList letters.reverse
  match measure? unit with
  | none => throw (if letters.isEmpty then .unitMissing amount else .unitUnknown unit)
  | some measure =>
    let total ← extend total (← fits (amount * measure.whole.seconds))
      (← fits (amount * measure.whole.nanos))
    match part with
    | none => return total
    | some part =>
      match measure.fraction with
      | none => throw .unrepresentable
      | some worth =>
        extend total (← exact (← fits (part.numerator * worth.seconds)) part.denominator)
          (← exact (← fits (part.numerator * worth.nanos)) part.denominator)

def digit? (c : Char) : Option Nat := if c.isDigit then some (c.toNat - 48) else none

/-- Whether a character belongs to the name of a unit. -/
def isUnitLetter (c : Char) : Bool := c.isAlpha || c == 'µ'

/-- Reads one character at a position. -/
def step (position : Nat) (c : Char) : Span × State → Except ParseError (Span × State)
  | (total, .gap since seen) =>
    match digit? c with
    | some d => .ok (total, .whole d)
    | none => if isBlank c then .ok (total, .gap since seen) else .error (.numberExpected since)
  | (total, .whole amount) =>
    match digit? c with
    | some d => (fits (amount * 10 + d)).map (fun amount => (total, .whole amount))
    | none =>
      if isBlank c then .ok (total, .whole amount)
      else if isUnitLetter c then .ok (total, .unit amount none [c])
      else if c = '.' then .ok (total, .fraction amount ⟨0, 1⟩ position)
      else .error (.invalidCharacter position)
  | (total, .fraction amount part anchor) =>
    match digit? c with
    | some d => do
      let denominator ← fits (part.denominator * 10)
      let numerator ← fits (part.numerator * 10 + d)
      return (total, .fraction amount ⟨numerator, denominator⟩ (position + c.utf8Size))
    | none =>
      if isBlank c then .ok (total, .fraction amount part (position + c.utf8Size))
      else if isUnitLetter c ∧ part.denominator ≠ 1 then .ok (total, .unit amount (some part) [c])
      else .error (.invalidCharacter anchor)
  | (total, .unit amount part letters) =>
    match digit? c with
    | some d => (addAmount total amount part letters).map (fun total => (total, .whole d))
    | none =>
      if isBlank c then
        (addAmount total amount part letters).map
          (fun total => (total, .gap (position + c.utf8Size) true))
      else if isUnitLetter c then .ok (total, .unit amount part (c :: letters))
      else .error (.invalidCharacter position)

/-- The span read when the text ends here. -/
def finish : Span × State → Except ParseError Span
  | (total, .gap _ seen) => if seen then .ok total else .error .blank
  | (total, .whole amount) => addAmount total amount none []
  | (total, .fraction amount part anchor) =>
    if part.denominator = 1 then .error (.invalidCharacter anchor)
    else addAmount total amount (some part) []
  | (total, .unit amount part letters) => addAmount total amount part letters

/-- Reads characters from a position on. -/
def run (position : Nat) (state : Span × State) : List Char → Except ParseError Span
  | [] => finish state
  | c :: rest =>
    match step position c state with
    | .error e => .error e
    | .ok state => run (position + c.utf8Size) state rest

def parse (s : String) : Except ParseError Span :=
  if s = "0" then .ok .zero else run 0 (.zero, .gap 0 false) s.toList

end Lifespan

end CredentialServer
