import CredentialServer.Proofs.Text.Armour
import CredentialServer.Token.Format

/-! # Which texts are tokens

A token is told from its form: it has two digits that check the others.  The form is tested octet by
octet, and the text is cut behind the twentieth, which could be within a character; it never is
(`test?_eq`).  Three octets are four digits and nothing is left over, so every row of twenty digits
is that of fifteen octets and of no others (`decode?_eq_some_iff`).  Main statement:
`recognizes`. -/

namespace CredentialServer

/-! ### Digits are octets -/

namespace Base64

variable {alphabet : Base64}

theorem digit_of_value? {c : Char} {n : Nat} (h : alphabet.value? c = some n) :
    n < 64 ∧ alphabet.digit n = c := by
  have hofNat : ∀ m, m = c.toNat → Char.ofNat m = c := by
    rintro _ rfl
    exact c.ofNat_toNat
  unfold value? at h
  simp only at h
  split at h
  · cases h
    refine ⟨by omega, ?_⟩
    unfold digit
    rw [if_pos (by omega)]
    exact hofNat _ (by omega)
  split at h
  · cases h
    refine ⟨by omega, ?_⟩
    unfold digit
    rw [if_neg (by omega), if_pos (by omega)]
    exact hofNat _ (by omega)
  split at h
  · cases h
    refine ⟨by omega, ?_⟩
    unfold digit
    rw [if_neg (by omega), if_neg (by omega), if_pos (by omega)]
    exact hofNat _ (by omega)
  cases alphabet with
  | standard =>
      simp only at h
      split at h
      · next hc => cases h; exact ⟨by decide, hc ▸ rfl⟩
      split at h
      · next hc => cases h; exact ⟨by decide, hc ▸ rfl⟩
      · cases h
  | urlSafe =>
      simp only at h
      split at h
      · next hc => cases h; exact ⟨by decide, hc ▸ rfl⟩
      split at h
      · next hc => cases h; exact ⟨by decide, hc ▸ rfl⟩
      · cases h

theorem encode_of_pair? {a b : Char} {group : Bytes} (h : alphabet.pair? a b = some group) :
    alphabet.encode group = [a, b] := by
  unfold pair? at h
  split at h
  · next m n ha hb =>
    obtain ⟨hm, rfl⟩ := digit_of_value? ha
    obtain ⟨hn, rfl⟩ := digit_of_value? hb
    split at h
    · next hzero =>
      cases h
      rw [encode, UInt8.toNat_ofNat', show (m * 4 + n / 16) % 256 / 4 = m by omega,
        show (m * 4 + n / 16) % 256 % 4 * 16 = n by omega]
    · cases h
  · cases h

theorem encode_of_triple? {a b c : Char} {group : Bytes}
    (h : alphabet.triple? a b c = some group) : alphabet.encode group = [a, b, c] := by
  unfold triple? at h
  split at h
  · next l m n ha hb hc =>
    obtain ⟨hl, rfl⟩ := digit_of_value? ha
    obtain ⟨hm, rfl⟩ := digit_of_value? hb
    obtain ⟨hn, rfl⟩ := digit_of_value? hc
    split at h
    · next hzero =>
      cases h
      rw [encode, UInt8.toNat_ofNat', UInt8.toNat_ofNat',
        show (l * 4 + m / 16) % 256 / 4 = l by omega,
        show (l * 4 + m / 16) % 256 % 4 * 16 + (m % 16 * 16 + n / 4) % 256 / 16 = m by omega,
        show (m % 16 * 16 + n / 4) % 256 % 16 * 4 = n by omega]
    · cases h
  · cases h

theorem encode_of_quad? {a b c d : Char} {group : Bytes} (h : alphabet.quad? a b c d = some group)
    (rest : Bytes) :
    alphabet.encode (group ++ rest) = a :: b :: c :: d :: alphabet.encode rest := by
  unfold quad? at h
  split at h
  · next k l m n ha hb hc hd =>
    obtain ⟨hk, rfl⟩ := digit_of_value? ha
    obtain ⟨hl, rfl⟩ := digit_of_value? hb
    obtain ⟨hm, rfl⟩ := digit_of_value? hc
    obtain ⟨hn, rfl⟩ := digit_of_value? hd
    cases h
    rw [List.cons_append, List.cons_append, List.cons_append, List.nil_append, encode,
      UInt8.toNat_ofNat', UInt8.toNat_ofNat', UInt8.toNat_ofNat',
      show (k * 4 + l / 16) % 256 / 4 = k by omega,
      show (k * 4 + l / 16) % 256 % 4 * 16 + (l % 16 * 16 + m / 4) % 256 / 16 = l by omega,
      show (l % 16 * 16 + m / 4) % 256 % 16 * 4 + (m % 4 * 64 + n) % 256 / 64 = m by omega,
      show (m % 4 * 64 + n) % 256 % 64 = n by omega]
  · cases h

/-- **Digits are read as the octets that they write, and nothing else is read.** -/
theorem decode?_eq_some_iff {l : List Char} {b : Bytes} :
    alphabet.decode? l = some b ↔ alphabet.encode b = l := by
  refine ⟨fun h => ?_, fun h => h ▸ decode?_encode alphabet b⟩
  induction l using decode?.induct alphabet generalizing b with
  | case1 =>
      cases h
      rfl
  | case2 a => cases h
  | case3 a a' => exact encode_of_pair? h
  | case4 a a' a'' => exact encode_of_triple? h
  | case5 a a' a'' a''' rest hgroup =>
      rw [decode?, hgroup] at h
      cases h
  | case6 a a' a'' a''' rest group hgroup ih =>
      rw [decode?, hgroup] at h
      obtain ⟨b', hb', rfl⟩ := Option.map_eq_some_iff.mp h
      rw [encode_of_quad? hgroup, ih hb']

/-- Four digits are always three octets, whatever the digits are. -/
theorem exists_encode_eq {l : List Char} (hdigits : ∀ c ∈ l, (alphabet.value? c).isSome = true)
    (hlength : l.length % 4 = 0) : ∃ b, alphabet.encode b = l := by
  simp only [← decode?_eq_some_iff]
  induction l using decode?.induct alphabet with
  | case1 => exact ⟨[], rfl⟩
  | case2 a => cases hlength
  | case3 a b => cases hlength
  | case4 a b c => cases hlength
  | case5 a b c d rest hgroup =>
      simp only [List.forall_mem_cons, Option.isSome_iff_exists] at hdigits
      obtain ⟨⟨k, ha⟩, ⟨l, hb⟩, ⟨m, hc⟩, ⟨n, hd⟩, -⟩ := hdigits
      simp only [quad?, ha, hb, hc, hd] at hgroup
      cases hgroup
  | case6 a b c d rest group hgroup ih =>
      simp only [List.forall_mem_cons] at hdigits
      simp only [List.length_cons] at hlength
      obtain ⟨bytes, hbytes⟩ := ih hdigits.2.2.2.2 (by omega)
      rw [decode?, hgroup, hbytes]
      exact ⟨_, rfl⟩

end Base64

/-! ### Characters and octets -/

namespace Token

/-- Cuts a text behind some octets; there is no such place behind its end or within a character. -/
def cut? : Nat → List Char → Option (List Char × List Char)
  | 0, s => some ([], s)
  | _ + 1, [] => none
  | n + 1, c :: s =>
    if c.utf8Size ≤ n + 1 then (cut? (n + 1 - c.utf8Size) s).map (fun p => (c :: p.1, p.2))
    else none

/-- How many octets a text takes. -/
def octetsOf : List Char → Nat
  | [] => 0
  | c :: s => c.utf8Size + octetsOf s

/-- Whether an octet is a letter, a figure, a dash or an underline. -/
def isDigitOctet (x : UInt8) : Bool :=
  (0x41 ≤ x && x ≤ 0x5a) || (0x61 ≤ x && x ≤ 0x7a) || (0x30 ≤ x && x ≤ 0x39) || x == 0x2d ||
    x == 0x5f

/-- Tests the form of a token octet by octet.  There is no answer if a text has to be cut where it
cannot be. -/
def test? (s : String) : Option Bool :=
  if (Bytes.ofText s).length ≠ bodyLength + checkLength ∨ ¬ (Bytes.ofText s).all isDigitOctet then
    some false
  else do
    let (body, suffix) ← cut? bodyLength s.toList
    let (kept, _) ← cut? checkLength
      (Base64.urlSafe.encode (sha256 (Bytes.ofText (String.ofList body))))
    return kept == suffix

theorem cut?_cons_eq_some_iff {n : Nat} {c d : Char} {s front back : List Char} :
    cut? (n + 1) (c :: s) = some (d :: front, back) ↔
      c = d ∧ c.utf8Size ≤ n + 1 ∧ cut? (n + 1 - c.utf8Size) s = some (front, back) := by
  rw [cut?]
  split
  · next hle =>
    rw [Option.map_eq_some_iff]
    constructor
    · rintro ⟨p, hp, heq⟩
      cases heq
      exact ⟨rfl, hle, hp⟩
    · rintro ⟨rfl, -, hp⟩
      exact ⟨_, hp, rfl⟩
  · next hgt =>
    refine iff_of_false (fun h => ?_) (fun h => hgt h.2.1)
    cases h

/-- A text is cut just where a character ends. -/
theorem cut?_eq_some_iff {n : Nat} {s front back : List Char} :
    cut? n s = some (front, back) ↔ front ++ back = s ∧ octetsOf front = n := by
  induction front generalizing n s with
  | nil =>
      cases n with
      | zero => simp [cut?, octetsOf, eq_comm]
      | succ n =>
          refine iff_of_false (fun h => ?_) (fun h => ?_)
          · cases s with
            | nil => cases h
            | cons c s =>
                rw [cut?] at h
                split at h
                · simp at h
                · cases h
          · cases h.2
  | cons d front ih =>
      have hd := d.utf8Size_pos
      rw [octetsOf]
      cases n with
      | zero =>
          refine iff_of_false (fun h => ?_) (fun h => ?_)
          · rw [cut?] at h
            cases h
          · omega
      | succ n =>
          cases s with
          | nil =>
              refine iff_of_false (fun h => ?_) (fun h => ?_)
              · cases h
              · cases h.1
          | cons c s =>
              rw [cut?_cons_eq_some_iff, ih, List.cons_append, List.cons.injEq]
              constructor
              · rintro ⟨rfl, hle, hs, hcount⟩
                exact ⟨⟨rfl, hs⟩, by omega⟩
              · rintro ⟨⟨rfl, hs⟩, hcount⟩
                exact ⟨rfl, by omega, hs, by omega⟩

theorem octetsOf_of_isDigit {s : List Char} (h : ∀ c ∈ s, isDigit c = true) :
    octetsOf s = s.length := by
  induction s with
  | nil => rfl
  | cons c s ih =>
      obtain ⟨hc, hs⟩ := List.forall_mem_cons.mp h
      rw [octetsOf, utf8Size_of_isDigit hc, ih hs, List.length_cons, Nat.add_comm]

theorem cut?_of_isDigit {n : Nat} {s : List Char} (h : ∀ c ∈ s, isDigit c = true)
    (hn : n ≤ s.length) : cut? n s = some (s.take n, s.drop n) := by
  refine cut?_eq_some_iff.mpr ⟨List.take_append_drop n s, ?_⟩
  rw [octetsOf_of_isDigit fun c hc => h c (List.mem_of_mem_take hc), List.length_take,
    Nat.min_eq_left hn]

theorem isDigit_iff_octet {c : Char} (h : c.toNat < 128) :
    isDigit c = isDigitOctet (UInt8.ofNat c.toNat) := by
  have all : ∀ n : Fin 128, isDigit (Char.ofNat n) = isDigitOctet (UInt8.ofNat n) := by decide
  have hc := all ⟨c.toNat, h⟩
  rwa [Char.ofNat_toNat] at hc

theorem utf8EncodeChar_of_lt {c : Char} (h : c.toNat < 128) :
    String.utf8EncodeChar c = [UInt8.ofNat c.toNat] := by
  unfold String.utf8EncodeChar
  simp only
  rw [if_pos (show c.val.toNat ≤ 127 from Nat.le_of_lt_succ h)]
  rfl

theorem toNat_lt_of_isDigit {c : Char} (h : isDigit c = true) : c.toNat < 128 :=
  Nat.lt_succ_of_le
    (UInt32.le_iff_toNat_le.mp (Char.utf8Size_eq_one_iff.mp (utf8Size_of_isDigit h)))

theorem toNat_lt_of_isDigitOctet {x : UInt8} (h : isDigitOctet x = true) : x.toNat < 128 := by
  simp only [isDigitOctet, Bool.or_eq_true, Bool.and_eq_true, decide_eq_true_eq, beq_iff_eq,
    UInt8.le_iff_toNat_le, ← UInt8.toNat_inj, UInt8.reduceToNat] at h
  omega

/-- The octets of a character are those of digits just if the character is one. -/
theorem all_utf8EncodeChar (c : Char) :
    (String.utf8EncodeChar c).all isDigitOctet = isDigit c := by
  by_cases hc : c.toNat < 128
  · rw [utf8EncodeChar_of_lt hc, isDigit_iff_octet hc]
    simp
  · have hnot : isDigit c = false := by
      rw [Bool.eq_false_iff]
      exact fun h => hc (toNat_lt_of_isDigit h)
    obtain ⟨x, hx⟩ := List.exists_mem_of_length_pos (l := String.utf8EncodeChar c)
      (by rw [String.length_utf8EncodeChar]; exact c.utf8Size_pos)
    rw [hnot, List.all_eq_false]
    refine ⟨x, hx, fun h => ?_⟩
    have hlt := toNat_lt_of_isDigitOctet h
    rcases Pem.toNat_of_mem_utf8EncodeChar hx with heq | hle <;> omega

theorem all_ofText (s : List Char) :
    (Bytes.ofText (String.ofList s)).all isDigitOctet = s.all isDigit := by
  induction s with
  | nil => rfl
  | cons c s ih => rw [Pem.ofText_cons, List.all_append, all_utf8EncodeChar, ih, List.all_cons]

theorem ofText_of_isDigit {s : List Char} (h : ∀ c ∈ s, isDigit c = true) :
    Bytes.ofText (String.ofList s) = s.map (fun c => UInt8.ofNat c.toNat) := by
  induction s with
  | nil => rfl
  | cons c s ih =>
      obtain ⟨hc, hs⟩ := List.forall_mem_cons.mp h
      rw [Pem.ofText_cons, utf8EncodeChar_of_lt (toNat_lt_of_isDigit hc), ih hs]
      rfl

theorem length_ofText (s : String) : (Bytes.ofText s).length = s.utf8ByteSize := rfl

/-! ### The test -/

theorem check_eq {body : List Char} (h : ∀ c ∈ body, isDigit c = true) :
    check body = (Base64.urlSafe.encode
      (sha256 (Bytes.ofText (String.ofList body)))).take checkLength := by
  rw [check, ofText_of_isDigit h]

/-- The test always gives an answer: rows of digits can be cut anywhere, and nothing else is cut. -/
theorem test?_eq (s : String) : test? s = some (isWellFormed s) := by
  have hall : (Bytes.ofText s).all isDigitOctet = s.toList.all isDigit := by
    rw [← all_ofText, String.ofList_toList]
  unfold test? isWellFormed
  rw [hall, length_ofText]
  by_cases hsize : s.utf8ByteSize = bodyLength + checkLength
  · cases hdigits : s.toList.all isDigit with
    | false => simp
    | true =>
        have hs := List.all_eq_true.mp hdigits
        have hlength : s.toList.length = bodyLength + checkLength := by
          rw [← utf8ByteSize_ofList hs, String.ofList_toList, hsize]
        have hbody : ∀ c ∈ s.toList.take bodyLength, isDigit c = true :=
          fun c hc => hs c (List.mem_of_mem_take hc)
        have hdigest : ∀ c ∈ Base64.urlSafe.encode (sha256 (Bytes.ofText
            (String.ofList (s.toList.take bodyLength)))), isDigit c = true :=
          fun c hc => isDigit_of_mem_encode hc
        have hlong : checkLength ≤ (Base64.urlSafe.encode (sha256 (Bytes.ofText
            (String.ofList (s.toList.take bodyLength))))).length := by
          rw [Base64.length_encode, length_sha256]
          decide
        rw [if_neg (by simp [hsize]), cut?_of_isDigit hs (by omega)]
        simp only [Option.bind_eq_bind, Option.bind_some]
        rw [cut?_of_isDigit hdigest hlong, ← check_eq hbody]
        simp [hsize]
  · simp [hsize]

/-- The twentieth octet may be within a character, and then the test is over before the cut. -/
example : cut? bodyLength "0123456789012345678é9".toList = none ∧
    test? "0123456789012345678é9" = some false := by decide +kernel

/-! ### What the test accepts -/

/-- A text is fifteen octets in digits, and behind these the first two digits of their digest. -/
structure IsMadeOf (s : String) (b : Bytes) : Prop where
  length : b.length = octetCount
  digits : s.toList = Base64.urlSafe.encode b ++ (Base64.urlSafe.encode
    (sha256 (Bytes.ofText (String.ofList (Base64.urlSafe.encode b))))).take checkLength

theorem isMadeOf_iff {s : String} {b : Bytes} :
    IsMadeOf s b ↔ b.length = octetCount ∧ s = ofOctets b := by
  have hcheck : check (Base64.urlSafe.encode b) = _ :=
    check_eq fun c hc => isDigit_of_mem_encode hc
  constructor
  · rintro ⟨hlength, hdigits⟩
    refine ⟨hlength, ?_⟩
    rw [ofOctets, hcheck, ← hdigits, String.ofList_toList]
  · rintro ⟨hlength, rfl⟩
    refine ⟨hlength, ?_⟩
    rw [ofOctets, hcheck, String.toList_ofList]

theorem IsMadeOf.unique {s : String} {b b' : Bytes} (h : IsMadeOf s b) (h' : IsMadeOf s b') :
    b = b' := by
  obtain ⟨hlength, hs⟩ := isMadeOf_iff.mp h
  obtain ⟨hlength', hs'⟩ := isMadeOf_iff.mp h'
  exact ofOctets_inj hlength hlength' (hs.symm.trans hs')

/-- A text that passes the test is made of the octets that its first twenty digits write. -/
theorem exists_isMadeOf {s : String} (h : isWellFormed s = true) : ∃ b, IsMadeOf s b := by
  simp only [isWellFormed, Bool.and_eq_true, beq_iff_eq, List.all_eq_true] at h
  obtain ⟨⟨hsize, hdigits⟩, hcheck⟩ := h
  have hlength : s.toList.length = bodyLength + checkLength := by
    rw [← utf8ByteSize_ofList hdigits, String.ofList_toList, hsize]
  have hbody : (s.toList.take bodyLength).length = bodyLength := by
    rw [List.length_take, hlength]
    rfl
  obtain ⟨b, hb⟩ := Base64.exists_encode_eq (l := s.toList.take bodyLength)
    (fun c hc => hdigits c (List.mem_of_mem_take hc)) (by rw [hbody]; rfl)
  have hcount : 20 = (b.length * 4 + 2) / 3 := by
    rw [← Base64.length_encode .urlSafe b, hb, hbody]
  have hoctets : b.length = octetCount := by
    show b.length = 15
    omega
  refine ⟨b, isMadeOf_iff.mpr ⟨hoctets, ?_⟩⟩
  rw [ofOctets, hb, hcheck, List.take_append_drop, String.ofList_toList]

/-- How tokens are told from other texts. -/
structure Recognizes (s : String) : Prop where
  /-- The test gives an answer, though it cuts the text. -/
  answers : test? s = some (isWellFormed s)
  /-- It accepts just what is made of octets. -/
  accepts_iff : isWellFormed s = true ↔ ∃ b, IsMadeOf s b
  /-- These octets can be told from the text, so different draws never make the same one. -/
  unique : ∀ b b', IsMadeOf s b → IsMadeOf s b' → b = b'
  /-- A text is made of octets just if it is the token that is drawn with them. -/
  drawn_iff : ∀ b, IsMadeOf s b ↔ b.length = octetCount ∧ s = ofOctets b

/-- **The test of the form accepts just the texts that are drawn.** -/
theorem recognizes (s : String) : Recognizes s where
  answers := test?_eq s
  accepts_iff := by
    refine ⟨exists_isMadeOf, ?_⟩
    rintro ⟨b, hb⟩
    obtain ⟨hlength, rfl⟩ := isMadeOf_iff.mp hb
    exact isWellFormed_ofOctets hlength
  unique _ _ hb hb' := hb.unique hb'
  drawn_iff _ := isMadeOf_iff

end Token
end CredentialServer
