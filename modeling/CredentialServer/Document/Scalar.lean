import CredentialServer.Document.Basic
import CredentialServer.Time.Calendar

/-!
# Numbers and dates in a configuration file

A word that stands for a number is only checked, since no setting has one for a value. A date or a
time is a table of one text. Digits may be grouped by single underscores. Main definition:
`Scalar.document?` gives the words that are numbers or dates.
-/

namespace CredentialServer

namespace Scalar

/-- Digits of a kind, grouped by single underscores. -/
def isGrouped (digit : Char → Bool) : List Char → Bool
  | [] => false
  | [c] => digit c
  | c :: '_' :: rest => digit c && isGrouped digit rest
  | c :: rest => digit c && isGrouped digit rest

/-- The number that grouped digits write. -/
def value (base : Nat) (s : List Char) : Nat :=
  s.foldl (fun n c => if c = '_' then n
    else n * base + (if c.isDigit then c.toNat - 48 else c.toLower.toNat - 87)) 0

/-- A word without its sign, and whether that is a minus. -/
def unsigned : List Char → Bool × List Char
  | '+' :: rest => (false, rest)
  | '-' :: rest => (true, rest)
  | s => (false, s)

/-- Grouped decimal digits of which a leading zero stands alone. -/
def isDecimal (s : List Char) : Bool :=
  isGrouped Char.isDigit s && (s.head? != some '0' || s.length == 1)

def isHexDigit (c : Char) : Bool := c.isDigit || ('a' ≤ c.toLower && c.toLower ≤ 'f')

/-- The first number that is too large for 64 bits with a sign; the least one has its size. -/
def integerLimit : Nat := UInt64.size / 2

/-- Whole numbers of 64 bits, in base ten with a sign or in another base without. -/
def isInteger (s : List Char) : Bool :=
  match s with
  | '0' :: 'x' :: digits => isGrouped isHexDigit digits && decide (value 16 digits < integerLimit)
  | '0' :: 'o' :: digits =>
    isGrouped (fun c => '0' ≤ c && c ≤ '7') digits && decide (value 8 digits < integerLimit)
  | '0' :: 'b' :: digits =>
    isGrouped (fun c => c == '0' || c == '1') digits && decide (value 2 digits < integerLimit)
  | _ =>
    let (negative, digits) := unsigned s
    isDecimal digits && decide (value 10 digits < integerLimit + (if negative then 1 else 0))

/-- A word cut at the first of some characters, which the second part keeps. -/
def cutAt (marks : List Char) (s : List Char) : List Char × List Char :=
  (s.takeWhile (fun c => !marks.contains c), s.dropWhile (fun c => !marks.contains c))

/-- Whether `digits * 10 ^ exponent` is so large that the nearest floating-point number is
infinite. -/
def isHuge (digits : Nat) (exponent : Int) : Bool :=
  if digits = 0 then false
  else
    let size : Int := (Nat.toDigits 10 digits).length
    if size + exponent < 309 then false
    else if 310 < size + exponent then true
    else
      let limit : Nat := (1 <<< 1024) - (1 <<< 970)
      if 0 ≤ exponent then limit ≤ digits * Nat.pow 10 exponent.toNat
      else limit * Nat.pow 10 (-exponent).toNat ≤ digits

/-- Numbers with a fraction, an exponent or both, and the words for no number and for infinity. -/
def isFloat (s : List Char) : Bool :=
  let (negative, digits) := unsigned s
  if digits = ['i', 'n', 'f'] ∨ digits = ['n', 'a', 'n'] then true
  else
    let (whole, rest) := cutAt ['.', 'e', 'E'] digits
    let (fraction, rest) := match rest with
      | '.' :: more => let (f, r) := cutAt ['e', 'E'] more; (some f, r)
      | r => (none, r)
    let exponent := match rest with
      | _ :: more => some (unsigned more)
      | [] => none
    let fractionDigits := (fraction.getD []).filter (· ≠ '_')
    let power : Int := match exponent with
      | some (true, e) => -(value 10 e : Int)
      | some (false, e) => (value 10 e : Int)
      | none => 0
    isDecimal whole && (fraction.isSome || exponent.isSome) &&
      (fraction.map (isGrouped Char.isDigit)).getD true &&
      (exponent.map (fun e => isGrouped Char.isDigit e.2)).getD true &&
      (negative || !isHuge (value 10 (whole ++ fractionDigits)) (power - fractionDigits.length))

def pair? (a b : Char) : Option Nat :=
  if a.isDigit && b.isDigit then some ((a.toNat - 48) * 10 + (b.toNat - 48)) else none

/-- A date at the head of a word, and what follows it. -/
def readDate? : List Char → Option (List Char × List Char)
  | a :: b :: c :: d :: '-' :: e :: f :: '-' :: g :: h :: rest => do
    let century ← pair? a b
    let year ← pair? c d
    let month ← pair? e f
    let day ← pair? g h
    guard (1 ≤ month ∧ month ≤ 12 ∧ 1 ≤ day ∧ day ≤ Date.daysIn (century * 100 + year : Nat) month)
    return ([a, b, c, d, '-', e, f, '-', g, h], rest)
  | _ => none

/-- A part of a second: nine digits of it, without zeros at the end, behind a point. -/
def fractionText (digits : List Char) : List Char :=
  match ((digits.take 9).reverse.dropWhile (· == '0')).reverse with
  | [] => []
  | kept => '.' :: kept

/-- A time of day at the head of a word, and what follows it. -/
def readTime? : List Char → Option (List Char × List Char)
  | a :: b :: ':' :: c :: d :: ':' :: e :: f :: rest => do
    let hour ← pair? a b
    let minute ← pair? c d
    let second ← pair? e f
    guard (hour ≤ 23 ∧ minute ≤ 59 ∧ second ≤ 60)
    let time := [a, b, ':', c, d, ':', e, f]
    match rest with
    | '.' :: more =>
      guard (more.head?.any Char.isDigit)
      return (time ++ fractionText (more.takeWhile Char.isDigit), more.dropWhile Char.isDigit)
    | _ => return (time, rest)
  | _ => none

/-- A difference to universal time; none at all has a plus. -/
def offsetText? : List Char → Option (List Char)
  | ['Z'] | ['z'] => some ['Z']
  | s :: a :: b :: ':' :: c :: [d] => do
    guard (s = '+' ∨ s = '-')
    let hours ← pair? a b
    let minutes ← pair? c d
    guard (hours ≤ 23 ∧ minutes ≤ 59)
    return (if hours = 0 ∧ minutes = 0 then '+' else s) :: [a, b, ':', c, d]
  | _ => none

/-- A word that is a time of day, perhaps with a difference to universal time. -/
def timeText? (offset : Bool) (s : List Char) : Option (List Char) :=
  match readTime? s with
  | some (time, []) => some time
  | some (time, rest) => if offset then (offsetText? rest).map (time ++ ·) else none
  | none => none

/-- A word that is a date, a time, or both with a T between, in its usual form. -/
def dateText? (s : List Char) : Option (List Char) :=
  match readDate? s with
  | some (date, []) => some date
  | some (date, c :: rest) =>
    if c = 'T' ∨ c = 't' ∨ c = ' ' then (timeText? true rest).map (date ++ 'T' :: ·) else none
  | none => timeText? false s

/-- What a word stands for, if it is a number or a date. -/
def document? (s : List Char) : Option Document :=
  if isInteger s || isFloat s then some (.scalar (String.ofList s))
  else (dateText? s).map (fun text => .ofDate (String.ofList text))

end Scalar

end CredentialServer
