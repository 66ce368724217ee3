import CredentialServer.Time.Calendar
import CredentialServer.Time.Instant

/-! # Sums of clocks and lifespans

Where an end is computed from a clock and a lifespan, the numbers have a width.  Dates have a first
and a last one, and the spans that can be added to them are bounded, too; but as they reach from the
first date past the last one, only the sum decides (`Dates.later?_eq`).  Seconds may be counted in
words, whose sums wrap around.  A sum that does is below its summands, so that it is found out
(`wordSum?_eq_some_iff`).  The seconds of an instant are added with a carry from its nanoseconds
(`Instant.second_add`). -/

namespace CredentialServer

/-! ### Parts of instants -/

namespace Instant

theorem second_eq (t : Instant) : t.second = t.nanos / (nanosPerSecond : Int) :=
  Int.fdiv_eq_ediv_of_nonneg _ (by decide)

theorem subsecond_eq (t : Instant) : (t.subsecond : Int) = t.nanos % (nanosPerSecond : Int) := by
  have hmod : t.nanos.fmod (nanosPerSecond : Int) = t.nanos % (nanosPerSecond : Int) :=
    Int.fmod_eq_emod_of_nonneg _ (by decide)
  rw [subsecond, hmod]
  exact Int.toNat_of_nonneg (Int.emod_nonneg _ (by decide))

/-- The second of a sum is the sum of the seconds, or the next one if the rest of both comes to a
whole second. -/
theorem second_add (t : Instant) (s : Span) : (t + s).second =
    t.second + s.seconds + ((t.subsecond + s.nanos) / nanosPerSecond : Nat) := by
  have hrest := t.subsecond_eq
  simp only [second_eq, nanos_add, Span.toNanos, nanosPerSecond] at hrest ⊢
  omega

def lastBefore (d : Date) : Instant := ⟨d.toSeconds * nanosPerSecond - 1⟩

end Instant

/-! ### Dates -/

/-- A range of dates and the longest span, in nanoseconds, that can be added to them. -/
structure Dates where
  first : Instant
  last : Instant
  longest : Nat
  /-- From every date, the longest span leads past the last one. -/
  reaches : last.nanos < first.nanos + longest

namespace Dates

variable {d : Dates} {t : Instant} {s : Span}

/-- The date a span later: neither the span nor the sum may be too large. -/
def later? (d : Dates) (t : Instant) (s : Span) : Option Instant :=
  if d.longest < s.toNanos then none
  else if d.last < t + s then none
  else some (t + s)

/-- No span is too long for a sum that is a date. -/
theorem later?_eq (ht : d.first ≤ t) :
    d.later? t s = if d.last < t + s then none else some (t + s) := by
  unfold later?
  by_cases hlong : d.longest < s.toNanos
  · have hlate : d.last < t + s := by
      have hreaches := d.reaches
      rw [Instant.le_def] at ht
      rw [Instant.lt_def, Instant.nanos_add]
      omega
    rw [if_pos hlong, if_pos hlate]
  · rw [if_neg hlong]

end Dates

/-! ### Words -/

/-- The sum of two words, unless it wraps around. -/
def wordSum? (a b : UInt64) : Option UInt64 := if a + b < a then none else some (a + b)

variable {a b c : UInt64}

theorem add_lt_left_iff : a + b < a ↔ UInt64.size ≤ a.toNat + b.toNat := by
  have ha := a.toNat_lt_size
  have hb := b.toNat_lt_size
  rw [UInt64.lt_iff_toNat_lt, UInt64.toNat_add]
  simp only [UInt64.size] at ha hb ⊢
  omega

theorem wordSum?_eq_some_iff : wordSum? a b = some c ↔ c.toNat = a.toNat + b.toNat := by
  unfold wordSum?
  by_cases hwraps : a + b < a
  · have hlarge := add_lt_left_iff.mp hwraps
    have hc := c.toNat_lt_size
    rw [if_pos hwraps]
    simp only [reduceCtorEq, false_iff]
    omega
  · have hsum : (a + b).toNat = a.toNat + b.toNat := by
      have hsmall := Nat.not_le.mp (mt add_lt_left_iff.mpr hwraps)
      rw [UInt64.toNat_add]
      exact Nat.mod_eq_of_lt hsmall
    rw [if_neg hwraps, Option.some.injEq, ← UInt64.toNat_inj, hsum]
    exact eq_comm

theorem wordSum?_eq_none_iff : wordSum? a b = none ↔ UInt64.size ≤ a.toNat + b.toNat := by
  unfold wordSum?
  rw [← add_lt_left_iff]
  by_cases hwraps : a + b < a
  · simp [hwraps]
  · simp [hwraps]

example : wordSum? 18446744073709551615 1 = none := by decide

end CredentialServer
