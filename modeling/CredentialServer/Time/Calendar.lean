import CredentialServer.Time.Instant

/-!
# Dates

The proleptic Gregorian calendar in UTC, without leap seconds. A day is found by counting years
from March, so that a leap day comes last: 400 years have 146097 days. The examples at the end fix
the two directions on the first and the last dates that certificates use.
-/

namespace CredentialServer

/-- A date and a time of day. -/
structure Date where
  year : Int
  month : Nat
  day : Nat
  hour : Nat
  minute : Nat
  second : Nat
  deriving DecidableEq, Repr

namespace Date

def isLeap (year : Int) : Bool := year % 4 == 0 && (year % 100 != 0 || year % 400 == 0)

def daysIn (year : Int) (month : Nat) : Nat :=
  match month with
  | 4 | 6 | 9 | 11 => 30
  | 2 => if isLeap year then 29 else 28
  | _ => 31

/-- Whether the fields name an existing date and time. -/
def isValid (d : Date) : Bool :=
  decide (1 ≤ d.month ∧ d.month ≤ 12 ∧ 1 ≤ d.day ∧ d.day ≤ daysIn d.year d.month ∧
    d.hour < 24 ∧ d.minute < 60 ∧ d.second < 60)

/-- Days from the start of 1970 to a date. -/
def dayNumber (d : Date) : Int :=
  let y := if d.month ≤ 2 then d.year - 1 else d.year
  let era := y / 400
  let yearOfEra := y % 400
  let shifted : Int := (d.month + 9) % 12
  let dayOfYear : Int := (153 * shifted + 2) / 5 + d.day - 1
  era * 146097 + yearOfEra * 365 + yearOfEra / 4 - yearOfEra / 100 + dayOfYear - 719468

/-- Seconds from the start of 1970 to a date. -/
def toSeconds (d : Date) : Int :=
  d.dayNumber * 86400 + d.hour * 3600 + d.minute * 60 + d.second

/-- The date of a second counted from the start of 1970. -/
def ofSeconds (s : Int) : Date :=
  let days := s / 86400 + 719468
  let rest := (s % 86400).toNat
  let era := days / 146097
  let dayOfEra := (days % 146097).toNat
  let yearOfEra := (dayOfEra - dayOfEra / 1460 + dayOfEra / 36524 - dayOfEra / 146096) / 365
  let dayOfYear := dayOfEra - (365 * yearOfEra + yearOfEra / 4 - yearOfEra / 100)
  let shifted := (5 * dayOfYear + 2) / 153
  let month := if shifted < 10 then shifted + 3 else shifted - 9
  { year := era * 400 + yearOfEra + (if month ≤ 2 then 1 else 0)
    month := month
    day := dayOfYear - (153 * shifted + 2) / 5 + 1
    hour := rest / 3600
    minute := rest / 60 % 60
    second := rest % 60 }

example : ofSeconds 0 = ⟨1970, 1, 1, 0, 0, 0⟩ := by decide
example : ofSeconds 951782400 = ⟨2000, 2, 29, 0, 0, 0⟩ := by decide
example : ofSeconds 253402300799 = ⟨9999, 12, 31, 23, 59, 59⟩ := by decide
example : toSeconds ⟨2049, 12, 31, 23, 59, 59⟩ = 2524607999 := by decide
example : toSeconds ⟨1950, 1, 1, 0, 0, 0⟩ = -631152000 := by decide

end Date

end CredentialServer
