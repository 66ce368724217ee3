import CredentialServer.Proofs.Grants.Binding
import CredentialServer.Time.Lifespan

/-! # Lifespans of no length

No amount of a lifespan is rounded or lost: an amount adds just what its unit is worth
(`toNanos_extend`), and no unit is worth nothing (`Measure.IsPositive`).  So a text that is read
comes to no time at all just if it was nothing all along.  Every step keeps this
(`isNothing_step_iff`), hence a run does (`toNanos_run_eq_zero_iff`), and in the end all of its
digits are zeros, whatever its units.  Main statement: `toNanos_parse_eq_zero_iff`. -/

namespace CredentialServer
namespace Lifespan

/-! ### Amounts -/

theorem fits_eq_ok {n m : Nat} (h : fits n = .ok m) : m = n := by
  unfold fits at h
  split at h
  · cases h
    rfl
  · cases h

theorem exact_eq_zero_iff {n d q : Nat} (h : exact n d = .ok q) : q = 0 ↔ n = 0 := by
  unfold exact at h
  split at h
  · next hexact =>
    cases h
    have hdiv := Nat.div_add_mod n d
    rw [hexact, Nat.add_zero] at hdiv
    constructor
    · intro hq
      rw [← hdiv, hq, Nat.mul_zero]
    · rintro rfl
      exact Nat.zero_div d
  · cases h

/-- Nothing is lost where nanoseconds are carried over into seconds. -/
theorem toNanos_extend {total span : Span} {seconds nanos : Nat}
    (h : extend total seconds nanos = .ok span) :
    span.toNanos = total.toNanos + (seconds * nanosPerSecond + nanos) := by
  unfold extend Span.ofParts? at h
  split at h
  · split at h
    · next hparts =>
      split at hparts
      · cases hparts
        cases h
        simp only [Span.toNanos, nanosPerSecond]
        omega
      · cases hparts
    · cases h
  · cases h

theorem toNanos_extend_eq_zero_iff {total span : Span} {seconds nanos : Nat}
    (h : extend total seconds nanos = .ok span) :
    span.toNanos = 0 ↔ total.toNanos = 0 ∧ seconds = 0 ∧ nanos = 0 := by
  rw [toNanos_extend h]
  simp only [nanosPerSecond]
  omega

/-- One of a unit is worth something, whole or in part. -/
structure Measure.IsPositive (m : Measure) : Prop where
  whole : 0 < m.whole.seconds + m.whole.nanos
  fraction : ∀ worth, m.fraction = some worth → 0 < worth.seconds + worth.nanos

theorem isPositive_of_measure? {unit : String} {m : Measure} (h : measure? unit = some m) :
    m.IsPositive := by
  unfold measure? at h
  repeat' split at h
  all_goals
    cases h
    try exact ⟨by decide, by rintro _ ⟨⟩ <;> decide⟩

theorem Worth.mul_eq_zero_iff {w : Worth} (h : 0 < w.seconds + w.nanos) (n : Nat) :
    n * w.seconds = 0 ∧ n * w.nanos = 0 ↔ n = 0 := by
  rw [Nat.mul_eq_zero, Nat.mul_eq_zero]
  omega

/-- Nothing but zeros stands behind the point. -/
def IsWhole (part : Option Fraction) : Prop := ∀ p, part = some p → p.numerator = 0

theorem toNanos_addAmount_eq_zero_iff {total span : Span} {amount : Nat} {part : Option Fraction}
    {letters : List Char} (h : addAmount total amount part letters = .ok span) :
    span.toNanos = 0 ↔ total.toNanos = 0 ∧ amount = 0 ∧ IsWhole part := by
  unfold addAmount at h
  dsimp only at h
  cases hmeasure : measure? (String.ofList letters.reverse) with
  | none =>
      rw [hmeasure] at h
      cases h
  | some measure =>
      rw [hmeasure] at h
      have hpositive := isPositive_of_measure? hmeasure
      obtain ⟨seconds, hseconds, h⟩ := exists_of_bind_eq_ok h
      obtain ⟨nanos, hnanos, h⟩ := exists_of_bind_eq_ok h
      obtain ⟨sum, hsum, h⟩ := exists_of_bind_eq_ok h
      have hwhole : sum.toNanos = 0 ↔ total.toNanos = 0 ∧ amount = 0 := by
        rw [toNanos_extend_eq_zero_iff hsum, fits_eq_ok hseconds, fits_eq_ok hnanos,
          Worth.mul_eq_zero_iff hpositive.whole]
      cases part with
      | none =>
          cases h
          rw [hwhole]
          simp [IsWhole]
      | some part =>
          cases hfraction : measure.fraction with
          | none =>
              rw [hfraction] at h
              cases h
          | some worth =>
              rw [hfraction] at h
              obtain ⟨n, hn, h⟩ := exists_of_bind_eq_ok h
              obtain ⟨partSeconds, hpartSeconds, h⟩ := exists_of_bind_eq_ok h
              obtain ⟨m, hm, h⟩ := exists_of_bind_eq_ok h
              obtain ⟨partNanos, hpartNanos, h⟩ := exists_of_bind_eq_ok h
              rw [toNanos_extend_eq_zero_iff h, hwhole, exact_eq_zero_iff hpartSeconds,
                exact_eq_zero_iff hpartNanos, fits_eq_ok hn, fits_eq_ok hm,
                Worth.mul_eq_zero_iff (hpositive.fraction worth hfraction)]
              simp [IsWhole, and_assoc]

/-! ### Characters -/

/-- A character that is a digit is a zero. -/
def IsZeroDigit (c : Char) : Prop := c.isDigit = true → c = '0'

theorem digit?_eq_some {c : Char} {d : Nat} (h : digit? c = some d) : d = 0 ↔ IsZeroDigit c := by
  unfold digit? at h
  split at h
  · next hdigit =>
    cases h
    have hrange : 48 ≤ c.toNat ∧ c.toNat ≤ 57 := Char.isDigit_iff_toNat.mp hdigit
    have hzero : c = '0' ↔ c.toNat = 48 := by
      rw [← Char.toNat_inj]
      rfl
    unfold IsZeroDigit
    rw [hzero, forall_prop_of_true hdigit]
    omega
  · cases h

theorem isZeroDigit_of_digit?_eq_none {c : Char} (h : digit? c = none) : IsZeroDigit c := by
  unfold digit? at h
  split at h
  · cases h
  · next hdigit => exact fun hc => absurd hc hdigit

/-- All that was read so far comes to nothing. -/
def IsNothing : Span × State → Prop
  | (total, .gap _ _) => total.toNanos = 0
  | (total, .whole amount) => total.toNanos = 0 ∧ amount = 0
  | (total, .fraction amount part _) => total.toNanos = 0 ∧ amount = 0 ∧ part.numerator = 0
  | (total, .unit amount part _) => total.toNanos = 0 ∧ amount = 0 ∧ IsWhole part

/-- By cases on where the reader is: nothing comes of a character but of a digit that is no zero. -/
theorem isNothing_step_iff {position : Nat} {c : Char} {state state' : Span × State}
    (h : step position c state = .ok state') :
    IsNothing state' ↔ IsNothing state ∧ IsZeroDigit c := by
  obtain ⟨total, place⟩ := state
  cases hdigit : digit? c with
  | some d =>
      have hzero := digit?_eq_some hdigit
      cases place with
      | gap since seen =>
          simp only [step, hdigit] at h
          cases h
          simp only [IsNothing, hzero]
      | whole amount =>
          simp only [step, hdigit] at h
          obtain ⟨n, hn, rfl⟩ := exists_of_map_eq_ok h
          rw [fits_eq_ok hn]
          simp only [IsNothing, ← hzero]
          omega
      | fraction amount part anchor =>
          simp only [step, hdigit] at h
          obtain ⟨denominator, -, h⟩ := exists_of_bind_eq_ok h
          obtain ⟨numerator, hn, h⟩ := exists_of_bind_eq_ok h
          cases h
          simp only [IsNothing, fits_eq_ok hn, ← hzero]
          omega
      | unit amount part letters =>
          simp only [step, hdigit] at h
          obtain ⟨span, hspan, rfl⟩ := exists_of_map_eq_ok h
          simp only [IsNothing, toNanos_addAmount_eq_zero_iff hspan, ← hzero]
  | none =>
      have hzero : IsZeroDigit c := isZeroDigit_of_digit?_eq_none hdigit
      rw [and_iff_left hzero]
      cases place with
      | gap since seen =>
          simp only [step, hdigit] at h
          split at h <;> cases h
          rfl
      | whole amount =>
          simp only [step, hdigit] at h
          split at h
          · cases h
            rfl
          split at h
          · cases h
            simp [IsNothing, IsWhole]
          split at h <;> cases h
          simp [IsNothing]
      | fraction amount part anchor =>
          simp only [step, hdigit] at h
          split at h
          · cases h
            rfl
          split at h <;> cases h
          simp [IsNothing, IsWhole]
      | unit amount part letters =>
          simp only [step, hdigit] at h
          split at h
          · obtain ⟨span, hspan, rfl⟩ := exists_of_map_eq_ok h
            exact toNanos_addAmount_eq_zero_iff hspan
          split at h <;> cases h
          rfl

theorem toNanos_finish_eq_zero_iff {state : Span × State} {span : Span}
    (h : finish state = .ok span) : span.toNanos = 0 ↔ IsNothing state := by
  obtain ⟨total, place⟩ := state
  cases place with
  | gap since seen =>
      simp only [finish] at h
      split at h <;> cases h
      rfl
  | whole amount =>
      simp only [finish] at h
      rw [toNanos_addAmount_eq_zero_iff h]
      simp [IsNothing, IsWhole]
  | fraction amount part anchor =>
      simp only [finish] at h
      split at h
      · cases h
      rw [toNanos_addAmount_eq_zero_iff h]
      simp [IsNothing, IsWhole]
  | unit amount part letters => exact toNanos_addAmount_eq_zero_iff h

/-- By induction on the characters, with what was read before them. -/
theorem toNanos_run_eq_zero_iff {position : Nat} {state : Span × State} {l : List Char}
    {span : Span} (h : run position state l = .ok span) :
    span.toNanos = 0 ↔ IsNothing state ∧ ∀ c ∈ l, IsZeroDigit c := by
  induction l generalizing position state with
  | nil =>
      rw [toNanos_finish_eq_zero_iff h]
      simp
  | cons c l ih =>
      simp only [run] at h
      split at h
      · cases h
      · next state' hstep =>
        rw [ih h, isNothing_step_iff hstep, List.forall_mem_cons, and_assoc]

/-- **A lifespan is no time at all just if all of its digits are zeros**, in whatever units. -/
theorem toNanos_parse_eq_zero_iff {s : String} {span : Span} (h : parse s = .ok span) :
    span.toNanos = 0 ↔ ∀ c ∈ s.toList, IsZeroDigit c := by
  unfold parse at h
  split at h
  · next hs =>
    cases h
    subst hs
    refine iff_of_true rfl ?_
    intro c hc _
    rw [show "0".toList = ['0'] from rfl, List.mem_singleton] at hc
    exact hc
  · rw [toNanos_run_eq_zero_iff h]
    exact and_iff_right rfl

example : parse "0h 0.00min" = .ok .zero := by cbv

end Lifespan
end CredentialServer
