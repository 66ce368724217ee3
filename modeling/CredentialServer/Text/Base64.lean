import CredentialServer.Bytes

/-!
# Base 64

Three octets are written as four digits of six bits. Two alphabets differ in their last two
digits, and a last group of one or two octets is either left short (`encode`, `decode?`) or filled
up with `=` (`decodePadded?`). Readers are strict: the bits that a short group leaves over are
zero. Main statements: `decode?_encode` (reading gives back what was written) and `length_encode`
(how many digits are written).
-/

namespace CredentialServer

/-- The alphabets, by their last two digits: `+/` or `-_`. -/
inductive Base64 where
  | standard
  | urlSafe
  deriving DecidableEq, Repr

namespace Base64

/-- The digit for a value below 64. -/
def digit (alphabet : Base64) (n : Nat) : Char :=
  if n < 26 then Char.ofNat (65 + n)
  else if n < 52 then Char.ofNat (71 + n)
  else if n < 62 then Char.ofNat (n - 4)
  else match alphabet with
    | .standard => if n = 62 then '+' else '/'
    | .urlSafe => if n = 62 then '-' else '_'

def value? (alphabet : Base64) (c : Char) : Option Nat :=
  let n := c.toNat
  if 65 ≤ n ∧ n ≤ 90 then some (n - 65)
  else if 97 ≤ n ∧ n ≤ 122 then some (n - 71)
  else if 48 ≤ n ∧ n ≤ 57 then some (n + 4)
  else match alphabet with
    | .standard => if c = '+' then some 62 else if c = '/' then some 63 else none
    | .urlSafe => if c = '-' then some 62 else if c = '_' then some 63 else none

theorem value?_digit (alphabet : Base64) {n : Nat} (h : n < 64) :
    alphabet.value? (alphabet.digit n) = some n := by
  have all : ∀ a : Base64, ∀ i : Fin 64, a.value? (a.digit i) = some i.val := by
    intro a; cases a <;> decide
  exact all alphabet ⟨n, h⟩

/-- The octets as digits, without padding. -/
def encode (alphabet : Base64) : Bytes → List Char
  | [] => []
  | [x] => [alphabet.digit (x.toNat / 4), alphabet.digit (x.toNat % 4 * 16)]
  | [x, y] =>
    [alphabet.digit (x.toNat / 4), alphabet.digit (x.toNat % 4 * 16 + y.toNat / 16),
      alphabet.digit (y.toNat % 16 * 4)]
  | x :: y :: z :: rest =>
    alphabet.digit (x.toNat / 4) :: alphabet.digit (x.toNat % 4 * 16 + y.toNat / 16) ::
      alphabet.digit (y.toNat % 16 * 4 + z.toNat / 64) :: alphabet.digit (z.toNat % 64) ::
      alphabet.encode rest

/-- The octets as digits, the last group filled up with `=`. -/
def encodePadded (alphabet : Base64) (b : Bytes) : List Char :=
  alphabet.encode b ++ List.replicate ((3 - b.length % 3) % 3) '='

/-- The octet that two digits stand for, if they leave nothing over. -/
def pair? (alphabet : Base64) (a b : Char) : Option Bytes :=
  match alphabet.value? a, alphabet.value? b with
  | some a, some b => if b % 16 = 0 then some [UInt8.ofNat (a * 4 + b / 16)] else none
  | _, _ => none

/-- The octets that three digits stand for, if they leave nothing over. -/
def triple? (alphabet : Base64) (a b c : Char) : Option Bytes :=
  match alphabet.value? a, alphabet.value? b, alphabet.value? c with
  | some a, some b, some c =>
    if c % 4 = 0 then
      some [UInt8.ofNat (a * 4 + b / 16), UInt8.ofNat (b % 16 * 16 + c / 4)]
    else none
  | _, _, _ => none

/-- The octets that four digits stand for. -/
def quad? (alphabet : Base64) (a b c d : Char) : Option Bytes :=
  match alphabet.value? a, alphabet.value? b, alphabet.value? c, alphabet.value? d with
  | some a, some b, some c, some d =>
    some [UInt8.ofNat (a * 4 + b / 16), UInt8.ofNat (b % 16 * 16 + c / 4),
      UInt8.ofNat (c % 4 * 64 + d)]
  | _, _, _, _ => none

/-- Reads digits without padding. -/
def decode? (alphabet : Base64) : List Char → Option Bytes
  | [] => some []
  | [_] => none
  | [a, b] => alphabet.pair? a b
  | [a, b, c] => alphabet.triple? a b c
  | a :: b :: c :: d :: rest =>
    match alphabet.quad? a b c d with
    | none => none
    | some group => (alphabet.decode? rest).map (group ++ ·)

/-- Reads digits whose last group is filled up with `=` to four. -/
def decodePadded? (alphabet : Base64) : List Char → Option Bytes
  | [] => some []
  | a :: b :: c :: d :: rest =>
    if rest.isEmpty && d == '=' then
      if c = '=' then alphabet.pair? a b else alphabet.triple? a b c
    else
      match alphabet.quad? a b c d with
      | none => none
      | some group => (alphabet.decodePadded? rest).map (group ++ ·)
  | _ => none

theorem decode?_encode (alphabet : Base64) (b : Bytes) :
    alphabet.decode? (alphabet.encode b) = some b := by
  induction b using encode.induct with
  | case1 => rfl
  | case2 x =>
    have hx := x.toNat_lt
    simp only [encode, decode?, pair?]
    rw [value?_digit _ (by omega), value?_digit _ (by omega)]
    simp only [show x.toNat % 4 * 16 % 16 = 0 by omega, if_true, Option.some.injEq,
      List.cons.injEq, and_true]
    apply UInt8.toNat_inj.1
    simp only [UInt8.toNat_ofNat']
    omega
  | case3 x y =>
    have hx := x.toNat_lt
    have hy := y.toNat_lt
    simp only [encode, decode?, triple?]
    rw [value?_digit _ (by omega), value?_digit _ (by omega), value?_digit _ (by omega)]
    simp only [show y.toNat % 16 * 4 % 4 = 0 by omega, if_true, Option.some.injEq,
      List.cons.injEq, and_true]
    constructor <;> apply UInt8.toNat_inj.1 <;> simp only [UInt8.toNat_ofNat'] <;> omega
  | case4 x y z rest ih =>
    have hx := x.toNat_lt
    have hy := y.toNat_lt
    have hz := z.toNat_lt
    simp only [encode, decode?, quad?]
    rw [value?_digit _ (by omega), value?_digit _ (by omega), value?_digit _ (by omega),
      value?_digit _ (by omega)]
    simp only [ih, Option.map_some, List.cons_append, List.nil_append, Option.some.injEq,
      List.cons.injEq, and_true]
    refine ⟨?_, ?_, ?_⟩ <;> apply UInt8.toNat_inj.1 <;> simp only [UInt8.toNat_ofNat'] <;> omega

/-- Four digits for three octets, and one digit more than octets for a short last group. -/
theorem length_encode (alphabet : Base64) (b : Bytes) :
    (alphabet.encode b).length = (b.length * 4 + 2) / 3 := by
  induction b using encode.induct with
  | case1 => rfl
  | case2 x => simp [encode]
  | case3 x y => simp [encode]
  | case4 x y z rest ih => simp only [encode, List.length_cons, ih]; omega

end Base64

end CredentialServer
