/-!
# Arithmetic modulo a number

Powers by repeated squaring and inverses modulo a prime. Main statement: `powMod_eq` (the fast
power is the power).
-/

namespace CredentialServer

/-- The power `b ^ e` modulo `m`, by repeated squaring. -/
def powMod (b e m : Nat) : Nat :=
  if h : e = 0 then 1 % m
  else
    let half := powMod (b * b % m) (e / 2) m
    if e % 2 = 1 then b * half % m else half
termination_by e
decreasing_by exact Nat.div_lt_self (Nat.pos_of_ne_zero h) (by decide)

theorem powMod_eq (b e m : Nat) : powMod b e m = Nat.pow b e % m := by
  change powMod b e m = b ^ e % m
  induction e using Nat.strongRecOn generalizing b with
  | ind e ih =>
    unfold powMod
    split
    · next h => subst h; rfl
    · next h =>
      have hlt : e / 2 < e := Nat.div_lt_self (by omega) (by decide)
      have hpow : (b * b % m) ^ (e / 2) % m = b ^ (2 * (e / 2)) % m := by
        rw [Nat.pow_mod, Nat.mod_mod, ← Nat.pow_mod, Nat.pow_mul, Nat.pow_two]
      simp only [ih _ hlt, hpow]
      split
      · next hodd =>
        rw [Nat.mul_mod, Nat.mod_mod, ← Nat.mul_mod, ← Nat.pow_succ', ]
        congr 2
        omega
      · next heven =>
        congr 2
        omega

/-- The inverse of `a` modulo a prime `p`, by Fermat's little theorem; zero has none and gives
zero. -/
def inverseMod (a p : Nat) : Nat := powMod (a % p) (p - 2) p

/-- The difference of `a` and `b` modulo `m`, both below `m`. -/
def subMod (a b m : Nat) : Nat := (a + m - b) % m

end CredentialServer
