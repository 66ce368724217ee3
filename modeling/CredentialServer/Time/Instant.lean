/-!
# Instants and spans

An `Instant` is a whole number of nanoseconds since the start of 1970, before or after. A `Span` is
a length of time: at most 2^64 - 1 whole seconds and less than a second more. Main statements:
`ext_toNanos` (a span is determined by its length) and `nanos_add`.
-/

namespace CredentialServer

/-- How many nanoseconds a second has. -/
abbrev nanosPerSecond : Nat := 1000000000

/-- A point in time, in nanoseconds since the start of 1970. -/
structure Instant where
  nanos : Int
  deriving DecidableEq, Repr, Inhabited

namespace Instant

instance : LE Instant := ⟨fun a b => a.nanos ≤ b.nanos⟩
instance : LT Instant := ⟨fun a b => a.nanos < b.nanos⟩
instance (a b : Instant) : Decidable (a ≤ b) := inferInstanceAs (Decidable (a.nanos ≤ b.nanos))
instance (a b : Instant) : Decidable (a < b) := inferInstanceAs (Decidable (a.nanos < b.nanos))

theorem le_def {a b : Instant} : a ≤ b ↔ a.nanos ≤ b.nanos := Iff.rfl
theorem lt_def {a b : Instant} : a < b ↔ a.nanos < b.nanos := Iff.rfl

/-- The instant at which a given second begins. -/
def ofSeconds (s : Int) : Instant := ⟨s * nanosPerSecond⟩

/-- The second in which an instant lies. -/
def second (t : Instant) : Int := t.nanos.fdiv nanosPerSecond

theorem second_le_second {a b : Instant} (h : a ≤ b) : a.second ≤ b.second := by
  have hnonneg : (0 : Int) ≤ (nanosPerSecond : Int) := by decide
  rw [second, second, Int.fdiv_eq_ediv_of_nonneg _ hnonneg, Int.fdiv_eq_ediv_of_nonneg _ hnonneg]
  exact Int.ediv_le_ediv (by decide) h

/-- How far into its second an instant is. -/
def subsecond (t : Instant) : Nat := (t.nanos.fmod nanosPerSecond).toNat

end Instant

/-- A length of time. -/
structure Span where
  seconds : Nat
  nanos : Nat
  seconds_lt : seconds < UInt64.size
  nanos_lt : nanos < nanosPerSecond
  deriving DecidableEq, Repr

namespace Span

def zero : Span := ⟨0, 0, by decide, by decide⟩

instance : Inhabited Span := ⟨zero⟩

/-- The span of these seconds and nanoseconds, if it is one. -/
def ofParts? (seconds nanos : Nat) : Option Span :=
  if h : seconds < UInt64.size ∧ nanos < nanosPerSecond then some ⟨seconds, nanos, h.1, h.2⟩
  else none

/-- A span in nanoseconds. -/
def toNanos (s : Span) : Nat := s.seconds * nanosPerSecond + s.nanos

def isZero (s : Span) : Bool := s.seconds == 0 && s.nanos == 0

theorem ext_toNanos {a b : Span} (h : a.toNanos = b.toNanos) : a = b := by
  obtain ⟨s, n, hs, hn⟩ := a
  obtain ⟨s', n', hs', hn'⟩ := b
  simp only [toNanos, nanosPerSecond] at h hn hn'
  obtain rfl : s = s' := by omega
  obtain rfl : n = n' := by omega
  rfl

theorem isZero_iff (s : Span) : s.isZero = true ↔ s.toNanos = 0 := by
  simp only [isZero, toNanos, nanosPerSecond, Bool.and_eq_true, beq_iff_eq]
  omega

end Span

namespace Instant

/-- The instant a span later. -/
def add (t : Instant) (s : Span) : Instant := ⟨t.nanos + s.toNanos⟩

instance : HAdd Instant Span Instant := ⟨add⟩

@[simp] theorem nanos_add (t : Instant) (s : Span) : (t + s).nanos = t.nanos + s.toNanos := rfl

end Instant

end CredentialServer
