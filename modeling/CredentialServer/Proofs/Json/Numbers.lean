import CredentialServer.Proofs.Json.Strings

/-! # Numbers

A number is made of a whole part, a fraction and an exponent, the last two of which may be missing.
A reader takes as much of each as there is.  So it takes a number as a whole if what stands behind
it is nothing that a number could go on with (`Ends`), and then it takes no more.  Main statements:
`number_of_skipNumber?`, `skipNumber?_of_number`. -/

namespace CredentialServer
namespace Json

variable {b rest : Bytes} {x : UInt8}

inductive Digits : Bytes → Bytes → Prop
  | last {x : UInt8} (rest : Bytes) : isDigit x = true → Digits (x :: rest) rest
  | more {x : UInt8} {b rest : Bytes} : isDigit x = true → Digits b rest → Digits (x :: b) rest

/-- A zero, or digits of which the first one is none. -/
inductive Whole : Bytes → Bytes → Prop
  | zero (rest : Bytes) : Whole (0x30 :: rest) rest
  | digits {x : UInt8} {b rest : Bytes} : x ≠ 0x30 → Digits (x :: b) rest → Whole (x :: b) rest

/-- A point and digits, or nothing. -/
inductive Fraction : Bytes → Bytes → Prop
  | none (rest : Bytes) : Fraction rest rest
  | some {b rest : Bytes} : Digits b rest → Fraction (0x2e :: b) rest

/-- An exponent, or nothing. -/
inductive Exponent : Bytes → Bytes → Prop
  | none (rest : Bytes) : Exponent rest rest
  | plain {e : UInt8} {b rest : Bytes} : e = 0x65 ∨ e = 0x45 → Digits b rest →
      Exponent (e :: b) rest
  | signed {e s : UInt8} {b rest : Bytes} : e = 0x65 ∨ e = 0x45 → s = 0x2b ∨ s = 0x2d →
      Digits b rest → Exponent (e :: s :: b) rest

/-- A number without its sign. -/
def Number (b rest : Bytes) : Prop := ∃ f e, Whole b f ∧ Fraction f e ∧ Exponent e rest

/-- Octets that no number goes on with. -/
def Ends (b : Bytes) : Prop :=
  ∀ x rest, b = x :: rest → isDigit x = false ∧ x ≠ 0x2e ∧ x ≠ 0x65 ∧ x ≠ 0x45

theorem digits_dropWhile (hx : isDigit x = true) (b : Bytes) :
    Digits (x :: b) (b.dropWhile isDigit) := by
  induction b generalizing x with
  | nil => exact .last _ hx
  | cons y b ih =>
      rw [List.dropWhile_cons]
      split
      · next hy => exact .more hx (ih hy)
      · exact .last _ hx

theorem digits_of_skipDigits? (h : skipDigits? b = some rest) : Digits b rest := by
  cases b with
  | nil => cases h
  | cons x b =>
      rw [skipDigits?] at h
      split at h
      · next hx =>
        cases h
        exact digits_dropWhile hx b
      · cases h

theorem Digits.dropWhile_eq (h : Digits b rest) (hrest : ∀ x more, rest = x :: more →
    isDigit x = false) : b.dropWhile isDigit = rest := by
  induction h with
  | last rest hx =>
      rw [List.dropWhile_cons, if_pos hx]
      cases rest with
      | nil => rfl
      | cons y more => rw [List.dropWhile_cons, if_neg (by simp [hrest y more rfl])]
  | more hx _ ih => rw [List.dropWhile_cons, if_pos hx, ih hrest]

theorem Digits.exists_cons (h : Digits b rest) : ∃ x more, b = x :: more ∧ isDigit x = true := by
  cases h with
  | last rest hx => exact ⟨_, _, rfl, hx⟩
  | more hx _ => exact ⟨_, _, rfl, hx⟩

theorem skipDigits?_of_digits (h : Digits b rest) (hrest : ∀ x more, rest = x :: more →
    isDigit x = false) : skipDigits? b = some rest := by
  have hdrop := h.dropWhile_eq hrest
  obtain ⟨x, more, rfl, hx⟩ := h.exists_cons
  rw [List.dropWhile_cons, if_pos hx] at hdrop
  rw [skipDigits?]
  rw [if_pos hx, hdrop]

theorem exponent_of_skipExponent? (h : skipExponent? b = some rest) : Exponent b rest := by
  cases b with
  | nil =>
      cases h
      exact .none _
  | cons e b =>
      rw [skipExponent?.eq_def] at h
      dsimp only at h
      split at h
      · next he =>
        cases b with
        | nil => cases h
        | cons s b =>
            simp only at h
            split at h
            · next hs => exact .signed he hs (digits_of_skipDigits? h)
            · exact .plain he (digits_of_skipDigits? h)
      · cases h
        exact .none _

theorem Ends.isDigit (h : Ends b) : ∀ x more, b = x :: more → isDigit x = false :=
  fun x more hb => (h x more hb).1

theorem skipExponent?_of_exponent (h : Exponent b rest) (hrest : Ends rest) :
    skipExponent? b = some rest := by
  cases h with
  | none =>
      cases b with
      | nil => rfl
      | cons x more =>
          obtain ⟨-, -, hlower, hupper⟩ := hrest x more rfl
          rw [skipExponent?.eq_def]
          dsimp only
          rw [if_neg (not_or.mpr ⟨hlower, hupper⟩)]
  | plain he hdigits =>
      have hskip := skipDigits?_of_digits hdigits hrest.isDigit
      obtain ⟨x, more, rfl, hx⟩ := hdigits.exists_cons
      have hsign : ¬ (x = 0x2b ∨ x = 0x2d) := by
        rintro (rfl | rfl)
        · cases hx
        · cases hx
      rw [skipExponent?.eq_def]
      dsimp only
      simp only [if_pos he, if_neg hsign]
      exact hskip
  | signed he hs hdigits =>
      have hskip := skipDigits?_of_digits hdigits hrest.isDigit
      rw [skipExponent?.eq_def]
      dsimp only
      simp only [if_pos he, if_pos hs]
      exact hskip

theorem Exponent.isDigit (h : Exponent b rest) (hrest : Ends rest) :
    ∀ x more, b = x :: more → Json.isDigit x = false := by
  intro x more hb
  cases h with
  | none => exact hrest.isDigit x more hb
  | plain he =>
      cases hb
      rcases he with rfl | rfl <;> decide
  | signed he =>
      cases hb
      rcases he with rfl | rfl <;> decide

theorem fraction_of_skipFraction? (h : skipFraction? b = some rest) :
    ∃ e, Fraction b e ∧ Exponent e rest := by
  cases b with
  | nil =>
      cases h
      exact ⟨[], .none _, .none _⟩
  | cons x b =>
      rw [skipFraction?] at h
      split at h
      · next hx =>
        subst hx
        obtain ⟨e, he, hrest⟩ := Option.bind_eq_some_iff.mp h
        exact ⟨e, .some (digits_of_skipDigits? he), exponent_of_skipExponent? hrest⟩
      · exact ⟨_, .none _, exponent_of_skipExponent? h⟩

theorem skipFraction?_of_fraction {e : Bytes} (h : Fraction b e) (he : Exponent e rest)
    (hrest : Ends rest) : skipFraction? b = some rest := by
  have hskip := skipExponent?_of_exponent he hrest
  cases h with
  | some hdigits =>
      rw [skipFraction?]
      rw [if_pos rfl, skipDigits?_of_digits hdigits (he.isDigit hrest)]
      exact hskip
  | none =>
      cases b with
      | nil =>
          cases he
          rfl
      | cons x more =>
          have hx : x ≠ 0x2e := by
            cases he with
            | none => exact (hrest x more rfl).2.1
            | plain he => rcases he with rfl | rfl <;> decide
            | signed he => rcases he with rfl | rfl <;> decide
          rw [skipFraction?]
          rw [if_neg hx]
          exact hskip

theorem Fraction.isDigit {e : Bytes} (h : Fraction b e) (he : Exponent e rest)
    (hrest : Ends rest) : ∀ x more, b = x :: more → Json.isDigit x = false := by
  intro x more hb
  cases h with
  | none => exact he.isDigit hrest x more hb
  | some =>
      cases hb
      decide

theorem number_of_skipNumber? (h : skipNumber? b = some rest) : Number b rest := by
  cases b with
  | nil => cases h
  | cons x b =>
      rw [skipNumber?.eq_def] at h
      dsimp only at h
      split at h
      · next hx =>
        subst hx
        cases b with
        | nil =>
            cases h
            exact ⟨[], [], .zero _, .none _, .none _⟩
        | cons y b =>
            simp only at h
            split at h
            · cases h
            · obtain ⟨e, hfraction, hexponent⟩ := fraction_of_skipFraction? h
              exact ⟨_, e, .zero _, hfraction, hexponent⟩
      · next hx =>
        split at h
        · next hdigit =>
          obtain ⟨e, hfraction, hexponent⟩ := fraction_of_skipFraction? h
          exact ⟨_, e, .digits hx (digits_dropWhile hdigit b), hfraction, hexponent⟩
        · cases h

theorem skipNumber?_of_number (h : Number b rest) (hrest : Ends rest) :
    skipNumber? b = some rest := by
  obtain ⟨f, e, hwhole, hfraction, hexponent⟩ := h
  have hskip := skipFraction?_of_fraction hfraction hexponent hrest
  have hdigit := hfraction.isDigit hexponent hrest
  cases hwhole with
  | zero =>
      rw [skipNumber?.eq_def]
      dsimp only
      cases f with
      | nil => exact hskip
      | cons y more =>
          simp only [if_true, hdigit y more rfl, Bool.false_eq_true, if_false]
          exact hskip
  | @digits x b _ hx hdigits =>
      have hdrop := hdigits.dropWhile_eq hdigit
      obtain ⟨_, _, heq, hfirst⟩ := hdigits.exists_cons
      cases heq
      rw [List.dropWhile_cons, if_pos hfirst] at hdrop
      rw [skipNumber?.eq_def]
      dsimp only
      rw [if_neg hx, if_pos hfirst, hdrop]
      exact hskip

theorem Digits.length_lt (h : Digits b rest) : rest.length < b.length := by
  induction h with
  | last rest hx => exact Nat.lt_succ_self _
  | more hx _ ih => exact Nat.lt_succ_of_lt ih

theorem Number.length_lt (h : Number b rest) : rest.length < b.length := by
  obtain ⟨f, e, hwhole, hfraction, hexponent⟩ := h
  have hlast : rest.length ≤ e.length := by
    cases hexponent with
    | none => exact Nat.le_refl _
    | plain _ hdigits => exact Nat.le_succ_of_le (Nat.le_of_lt hdigits.length_lt)
    | signed _ _ hdigits =>
        exact Nat.le_succ_of_le (Nat.le_succ_of_le (Nat.le_of_lt hdigits.length_lt))
  have hmiddle : e.length ≤ f.length := by
    cases hfraction with
    | none => exact Nat.le_refl _
    | some hdigits => exact Nat.le_succ_of_le (Nat.le_of_lt hdigits.length_lt)
  have hfirst : f.length < b.length := by
    cases hwhole with
    | zero => exact Nat.lt_succ_self _
    | digits _ hdigits => exact hdigits.length_lt
  omega

theorem Number.exists_cons (h : Number b rest) : ∃ x more, b = x :: more ∧ isDigit x = true := by
  obtain ⟨f, e, hwhole, -, -⟩ := h
  cases hwhole with
  | zero => exact ⟨_, _, rfl, by decide⟩
  | digits hx hdigits => exact hdigits.exists_cons

theorem Digits.append (h : Digits b rest) (q : Bytes) : Digits (b ++ q) (rest ++ q) := by
  induction h with
  | last rest hx => exact .last _ hx
  | more hx _ ih => exact .more hx ih

theorem Number.append (h : Number b rest) (q : Bytes) : Number (b ++ q) (rest ++ q) := by
  obtain ⟨f, e, hwhole, hfraction, hexponent⟩ := h
  refine ⟨f ++ q, e ++ q, ?_, ?_, ?_⟩
  · cases hwhole with
    | zero => exact .zero _
    | digits hx hdigits => exact .digits hx (hdigits.append q)
  · cases hfraction with
    | none => exact .none _
    | some hdigits => exact .some (hdigits.append q)
  · cases hexponent with
    | none => exact .none _
    | plain he hdigits => exact .plain he (hdigits.append q)
    | signed he hs hdigits => exact .signed he hs (hdigits.append q)

end Json
end CredentialServer
