import CredentialServer.Crypto.Sha2
import CredentialServer.Text.Base64

/-!
# The form of a token

A token is fifteen octets in twenty digits and two digits more, which check the twenty. Main
statements: `isWellFormed_ofOctets` (every token that is made has the form) and `ofOctets_inj`
(different octets make different tokens).
-/

namespace CredentialServer

namespace Token

/-- How many octets a token is made of. -/
abbrev octetCount : Nat := 15

/-- How many digits the octets take. -/
abbrev bodyLength : Nat := 20

/-- How many digits check them. -/
abbrev checkLength : Nat := 2

/-- The digits that check others: the first two of their digest's. -/
def check (body : List Char) : List Char :=
  (Base64.urlSafe.encode (sha256 (body.map (fun c => UInt8.ofNat c.toNat)))).take checkLength

/-- The token made of some octets. -/
def ofOctets (b : Bytes) : String :=
  String.ofList (Base64.urlSafe.encode b ++ check (Base64.urlSafe.encode b))

/-- Whether a character is a digit of a token. -/
def isDigit (c : Char) : Bool := (Base64.urlSafe.value? c).isSome

/-- Whether a text has the form of a token. -/
def isWellFormed (s : String) : Bool :=
  s.utf8ByteSize == bodyLength + checkLength && s.toList.all isDigit &&
    check (s.toList.take bodyLength) == s.toList.drop bodyLength

theorem length_check (body : List Char) : (check body).length = checkLength := by
  simp [check, Base64.length_encode, checkLength]

theorem isDigit_digit (n : Nat) (h : n < 64) : isDigit (Base64.urlSafe.digit n) = true := by
  rw [isDigit, Base64.value?_digit .urlSafe h]; rfl

theorem isDigit_of_mem_encode {b : Bytes} {c : Char} (h : c ∈ Base64.urlSafe.encode b) :
    isDigit c = true := by
  induction b using Base64.encode.induct with
  | case1 => simp [Base64.encode] at h
  | case2 x =>
    have := x.toNat_lt
    simp only [Base64.encode, List.mem_cons, List.not_mem_nil, or_false] at h
    rcases h with rfl | rfl <;> exact isDigit_digit _ (by omega)
  | case3 x y =>
    have := x.toNat_lt
    have := y.toNat_lt
    simp only [Base64.encode, List.mem_cons, List.not_mem_nil, or_false] at h
    rcases h with rfl | rfl | rfl <;> exact isDigit_digit _ (by omega)
  | case4 x y z rest ih =>
    have := x.toNat_lt
    have := y.toNat_lt
    have := z.toNat_lt
    simp only [Base64.encode, List.mem_cons] at h
    rcases h with rfl | rfl | rfl | rfl | h
    · exact isDigit_digit _ (by omega)
    · exact isDigit_digit _ (by omega)
    · exact isDigit_digit _ (by omega)
    · exact isDigit_digit _ (by omega)
    · exact ih h

theorem utf8Size_of_isDigit {c : Char} (h : isDigit c = true) : c.utf8Size = 1 := by
  have hle : c.toNat ≤ 127 := by
    simp only [isDigit, Base64.value?] at h
    split at h
    · omega
    split at h
    · omega
    split at h
    · omega
    split at h
    · next hc => subst hc; decide
    split at h
    · next hc => subst hc; decide
    · cases h
  exact Char.utf8Size_eq_one_iff.2 (UInt32.le_iff_toNat_le.2 hle)

theorem utf8ByteSize_ofList {l : List Char} (h : ∀ c ∈ l, isDigit c = true) :
    (String.ofList l).utf8ByteSize = l.length := by
  induction l with
  | nil => rfl
  | cons c l ih =>
    have hc := utf8Size_of_isDigit (h c List.mem_cons_self)
    have hl := ih (fun d hd => h d (List.mem_cons_of_mem _ hd))
    have hs : String.ofList (c :: l) = String.singleton c ++ String.ofList l := by
      rw [← String.toList_inj]
      simp
    rw [hs, String.utf8ByteSize_append, hl]
    simp [hc, Nat.add_comm]

theorem isWellFormed_ofOctets {b : Bytes} (h : b.length = octetCount) :
    isWellFormed (ofOctets b) = true := by
  have hlen : (Base64.urlSafe.encode b).length = bodyLength := by
    rw [Base64.length_encode, h]; rfl
  have hdigits : ∀ c ∈ Base64.urlSafe.encode b ++ check (Base64.urlSafe.encode b),
      isDigit c = true := by
    intro c hc
    rcases List.mem_append.1 hc with hc | hc
    · exact isDigit_of_mem_encode hc
    · exact isDigit_of_mem_encode (List.mem_of_mem_take hc)
  simp only [isWellFormed, Bool.and_eq_true, beq_iff_eq, List.all_eq_true]
  refine ⟨⟨?_, ?_⟩, ?_⟩
  · rw [ofOctets, utf8ByteSize_ofList hdigits, List.length_append, hlen, length_check]
  · rw [ofOctets, String.toList_ofList]
    exact hdigits
  · rw [ofOctets, String.toList_ofList, List.take_left' hlen, List.drop_left' hlen]

theorem ofOctets_inj {a b : Bytes} (ha : a.length = octetCount) (hb : b.length = octetCount)
    (h : ofOctets a = ofOctets b) : a = b := by
  have hl (x : Bytes) (hx : x.length = octetCount) :
      (Base64.urlSafe.encode x).length = bodyLength := by
    rw [Base64.length_encode, hx]; rfl
  have ht : (ofOctets a).toList.take bodyLength = (ofOctets b).toList.take bodyLength := by rw [h]
  rw [ofOctets, ofOctets, String.toList_ofList, String.toList_ofList,
    List.take_left' (hl a ha), List.take_left' (hl b hb)] at ht
  have := Base64.decode?_encode .urlSafe a
  rw [ht, Base64.decode?_encode] at this
  exact (Option.some.inj this).symm

end Token

end CredentialServer
