import CredentialServer.Json.Skip
import CredentialServer.Proofs.Ssh.Reading

/-! # Strings and blanks

What stands in octets is said by relations between the octets and what is left of them behind it.
Blanks may stand before every token (`Blanks`).  A string is shown octet by octet, a backslash and
a letter for some octets, and the numbers of code points (`Shows`); a reader finds the octets just
if they are shown.  A string that nobody looks at only has to have a form (`IsForm`).  Main
statements: `readRest_eq_some_iff`, `readString?_eq_some_iff`. -/

namespace CredentialServer
namespace Json

variable {b c rest octets : Bytes} {s : String}

/-! ### Blanks -/

theorem isBlankOctet_iff {x : UInt8} :
    isBlankOctet x = true ↔ x = 0x20 ∨ x = 0x0a ∨ x = 0x09 ∨ x = 0x0d := by
  simp only [isBlankOctet, Bool.or_eq_true, beq_iff_eq, or_assoc]

/-- Octets that are others behind blanks. -/
inductive Blanks : Bytes → Bytes → Prop
  | none (b : Bytes) : Blanks b b
  | more {x : UInt8} {b rest : Bytes} : isBlankOctet x = true → Blanks b rest →
      Blanks (x :: b) rest

theorem blanks_dropBlanks (b : Bytes) : Blanks b (dropBlanks b) := by
  unfold dropBlanks
  induction b with
  | nil => exact .none _
  | cons x b ih =>
      rw [List.dropWhile_cons]
      split
      · next hx => exact .more hx ih
      · exact .none _

theorem blanks_of_dropBlanks_eq (h : dropBlanks b = rest) : Blanks b rest :=
  h ▸ blanks_dropBlanks b

theorem Blanks.dropBlanks_eq (h : Blanks b rest) : dropBlanks b = dropBlanks rest := by
  unfold dropBlanks
  induction h with
  | none b => rfl
  | more hx _ ih => rw [List.dropWhile_cons, if_pos hx, ih]

theorem Blanks.length_le (h : Blanks b rest) : rest.length ≤ b.length := by
  induction h with
  | none b => exact Nat.le_refl _
  | more hx _ ih => exact Nat.le_succ_of_le ih

theorem Blanks.append (h : Blanks b rest) (q : Bytes) : Blanks (b ++ q) (rest ++ q) := by
  induction h with
  | none b => exact .none _
  | more hx _ ih => exact .more hx ih

theorem Blanks.length_lt {x : UInt8} (h : Blanks b (x :: rest)) : rest.length < b.length :=
  h.length_le

theorem Blanks.nil_of_nil (h : Blanks b rest) (hend : Blanks b []) : Blanks rest [] := by
  apply blanks_of_dropBlanks_eq
  rw [← h.dropBlanks_eq, hend.dropBlanks_eq]
  rfl

theorem dropBlanks_of_not_blank {x : UInt8} (hx : isBlankOctet x = false) (b : Bytes) :
    dropBlanks (x :: b) = x :: b := by
  unfold dropBlanks
  rw [List.dropWhile_cons, if_neg (by simp [hx])]

theorem blanks_cons_iff {x : UInt8} (hx : isBlankOctet x = false) :
    Blanks b (x :: rest) ↔ dropBlanks b = x :: rest := by
  constructor
  · intro h
    rw [h.dropBlanks_eq, dropBlanks_of_not_blank hx]
  · exact blanks_of_dropBlanks_eq

theorem readMark?_eq_some_iff {mark : UInt8} (hmark : isBlankOctet mark = false) :
    readMark? mark b = some rest ↔ Blanks b (mark :: rest) := by
  rw [blanks_cons_iff hmark]
  unfold readMark?
  cases dropBlanks b with
  | nil => simp
  | cons x more =>
      by_cases hx : x = mark
      · simp [hx]
      · simp [hx]

/-- What is found stands there, even if it should be a blank. -/
theorem blanks_of_readMark? {mark : UInt8} (h : readMark? mark b = some rest) :
    Blanks b (mark :: rest) := by
  unfold readMark? at h
  split at h
  · next x more hdrop =>
    split at h
    · next hx =>
      cases h
      exact hx ▸ blanks_of_dropBlanks_eq hdrop
    · cases h
  · cases h

theorem readMark?_eq_none {x mark : UInt8} (h : Blanks b (x :: rest))
    (hx : isBlankOctet x = false) (hne : x ≠ mark) : readMark? mark b = none := by
  unfold readMark?
  rw [(blanks_cons_iff hx).mp h]
  exact if_neg hne

/-! ### Contents of strings -/

/-- Contents of a string, with the octets that they show, up to the closing quote. -/
inductive Shows : Bytes → Bytes → Bytes → Prop
  | close (rest : Bytes) : Shows (0x22 :: rest) [] rest
  | plain {x : UInt8} {b octets rest : Bytes} : x ≠ 0x22 → x ≠ 0x5c → ¬ x < 0x20 →
      Shows b octets rest → Shows (x :: b) (x :: octets) rest
  | short {e x : UInt8} {b octets rest : Bytes} : shortEscape? e = some x →
      Shows b octets rest → Shows (0x5c :: e :: b) (x :: octets) rest
  /-- The number of a code point that is no surrogate. -/
  | number {h₁ h₂ h₃ h₄ : UInt8} {n : Nat} {b octets rest : Bytes} :
      hexNumber? h₁ h₂ h₃ h₄ = some n → n < 0xd800 ∨ 0xe000 ≤ n → Shows b octets rest →
        Shows (0x5c :: 0x75 :: h₁ :: h₂ :: h₃ :: h₄ :: b)
          (String.utf8EncodeChar (Char.ofNat n) ++ octets) rest
  /-- The numbers of two surrogates, which make one code point. -/
  | pair {h₁ h₂ h₃ h₄ l₁ l₂ l₃ l₄ : UInt8} {n m : Nat} {b octets rest : Bytes} :
      hexNumber? h₁ h₂ h₃ h₄ = some n → 0xd800 ≤ n → n < 0xdc00 →
      hexNumber? l₁ l₂ l₃ l₄ = some m → 0xdc00 ≤ m → m < 0xe000 → Shows b octets rest →
        Shows (0x5c :: 0x75 :: h₁ :: h₂ :: h₃ :: h₄ :: 0x5c :: 0x75 :: l₁ :: l₂ :: l₃ :: l₄ :: b)
          (String.utf8EncodeChar (Char.ofNat (0x10000 + (n - 0xd800) * 0x400 + (m - 0xdc00))) ++
            octets) rest

theorem reverse_codePoint (n : Nat) :
    (codePoint n).reverse = String.utf8EncodeChar (Char.ofNat n) := List.reverse_reverse _

theorem shows_of_readRest {done found : Bytes} (h : readRest done b = some (found, rest)) :
    ∃ octets, found = done.reverse ++ octets ∧ Shows b octets rest := by
  fun_induction readRest done b with
  | case2 done more =>
      cases h
      exact ⟨[], (List.append_nil _).symm, .close _⟩
  | case4 done x more hquote hcontrol hslash ih =>
      obtain ⟨octets, hfound, hshows⟩ := ih h
      refine ⟨x :: octets, ?_, .plain hquote hslash hcontrol hshows⟩
      rw [hfound, List.reverse_cons, List.append_assoc]
      rfl
  | case6 done x hquote hcontrol hslash e more he y hy ih =>
      obtain ⟨octets, hfound, hshows⟩ := ih h
      obtain rfl : x = 0x5c := Decidable.not_not.mp hslash
      refine ⟨y :: octets, ?_, .short hy hshows⟩
      rw [hfound, List.reverse_cons, List.append_assoc]
      rfl
  | case9 done x hquote hcontrol hslash e he h₁ h₂ h₃ h₄ more n hn hrange ih =>
      obtain ⟨octets, hfound, hshows⟩ := ih h
      obtain rfl : x = 0x5c := Decidable.not_not.mp hslash
      obtain rfl : e = 0x75 := Decidable.not_not.mp he
      refine ⟨_, ?_, .number hn hrange hshows⟩
      rw [hfound, List.reverse_append, reverse_codePoint, List.append_assoc]
  | case12 done x hquote hcontrol hslash e he h₁ h₂ h₃ h₄ n hn hrange hhigh s u l₁ l₂ l₃ l₄ more m
      hm hlow ih =>
      obtain ⟨octets, hfound, hshows⟩ := ih h
      obtain rfl : x = 0x5c := Decidable.not_not.mp hslash
      obtain rfl : e = 0x75 := Decidable.not_not.mp he
      obtain ⟨rfl, rfl, hm₁, hm₂⟩ := hlow
      obtain ⟨hn₁, -⟩ := not_or.mp hrange
      refine ⟨_, ?_, .pair hn (Nat.not_lt.mp hn₁) (Nat.not_le.mp hhigh) hm hm₁ hm₂ hshows⟩
      rw [hfound, List.reverse_append, reverse_codePoint, List.append_assoc]
  | _ => cases h

theorem readRest_of_shows (h : Shows b octets rest) (done : Bytes) :
    readRest done b = some (done.reverse ++ octets, rest) := by
  induction h generalizing done with
  | close rest =>
      rw [readRest.eq_def]
      simp
  | plain hquote hslash hcontrol _ ih =>
      rw [readRest_plain hquote hslash hcontrol, ih]
      simp
  | @short e x b octets rest he _ ih =>
      have hne : e ≠ 0x75 := by
        rintro rfl
        cases he
      rw [readRest_short hne he, ih]
      simp
  | number hn hrange _ ih =>
      rw [readRest.eq_def]
      simp [hn, hrange, ih, reverse_codePoint]
  | pair hn hn₁ hn₂ hm hm₁ hm₂ _ ih =>
      have hrange : ¬ (_ < 0xd800 ∨ 0xe000 ≤ _) :=
        not_or.mpr ⟨Nat.not_lt.mpr hn₁, Nat.not_le.mpr (Nat.lt_trans hn₂ (by decide))⟩
      rw [readRest.eq_def]
      simp [hn, hrange, Nat.not_le.mpr hn₂, hm, hm₁, hm₂, ih, reverse_codePoint]

theorem readRest_eq_some_iff : readRest [] b = some (octets, rest) ↔ Shows b octets rest := by
  constructor
  · intro h
    obtain ⟨octets', rfl, hshows⟩ := shows_of_readRest h
    exact hshows
  · intro h
    exact readRest_of_shows h []

theorem Shows.length_lt (h : Shows b octets rest) : rest.length < b.length := by
  induction h with
  | close rest => exact Nat.lt_succ_self _
  | _ =>
      simp only [List.length_cons]
      omega

theorem Shows.append (h : Shows b octets rest) (q : Bytes) :
    Shows (b ++ q) octets (rest ++ q) := by
  induction h with
  | close rest => exact .close _
  | plain hquote hslash hcontrol _ ih => exact .plain hquote hslash hcontrol ih
  | short he _ ih => exact .short he ih
  | number hn hrange _ ih => exact .number hn hrange ih
  | pair hn hn₁ hn₂ hm hm₁ hm₂ _ ih => exact .pair hn hn₁ hn₂ hm hm₁ hm₂ ih

/-! ### Strings of text -/

/-- Octets that start with a text in quotes, behind blanks. -/
def Quotes (b : Bytes) (s : String) (rest : Bytes) : Prop :=
  ∃ c, Blanks b (0x22 :: c) ∧ Shows c (Bytes.ofText s) rest

/-- A reader finds the text in quotes, which must be one in UTF-8. -/
theorem readString?_eq_some_iff :
    readString? (dropBlanks b) = some (s, rest) ↔ Quotes b s rest := by
  have hquote : isBlankOctet 0x22 = false := by decide
  unfold Quotes
  simp only [blanks_cons_iff hquote, ← readRest_eq_some_iff]
  unfold readString? readOctets?
  cases dropBlanks b with
  | nil => simp
  | cons x c =>
      by_cases hx : x = 0x22
      · subst hx
        simp only [if_true, List.cons.injEq, true_and, exists_eq_left']
        cases readRest [] c with
        | none => simp
        | some found =>
            obtain ⟨octets, rest'⟩ := found
            simp only [Option.map_eq_some_iff, Bytes.toText?_eq_some_iff, Prod.mk.injEq,
              Option.some.injEq]
            constructor
            · rintro ⟨s', rfl, rfl, rfl⟩
              exact ⟨rfl, rfl⟩
            · rintro ⟨rfl, rfl⟩
              exact ⟨s, rfl, rfl, rfl⟩
      · simp [hx]

theorem Quotes.length_lt (h : Quotes b s rest) : rest.length < b.length := by
  obtain ⟨c, hblanks, hshows⟩ := h
  exact Nat.lt_trans hshows.length_lt hblanks.length_lt

theorem Quotes.append (h : Quotes b s rest) (q : Bytes) : Quotes (b ++ q) s (rest ++ q) := by
  obtain ⟨c, hblanks, hshows⟩ := h
  exact ⟨c ++ q, hblanks.append q, hshows.append q⟩

/-! ### Strings that nobody looks at -/

/-- Contents of a string that only have the form of some, up to the closing quote: surrogates may
stand alone, and the octets need not be text. -/
inductive IsForm : Bytes → Bytes → Prop
  | close (rest : Bytes) : IsForm (0x22 :: rest) rest
  | plain {x : UInt8} {b rest : Bytes} : x ≠ 0x22 → x ≠ 0x5c → ¬ x < 0x20 → IsForm b rest →
      IsForm (x :: b) rest
  | short {e : UInt8} {b rest : Bytes} : (shortEscape? e).isSome → IsForm b rest →
      IsForm (0x5c :: e :: b) rest
  | number {h₁ h₂ h₃ h₄ : UInt8} {b rest : Bytes} : (hexNumber? h₁ h₂ h₃ h₄).isSome →
      IsForm b rest → IsForm (0x5c :: 0x75 :: h₁ :: h₂ :: h₃ :: h₄ :: b) rest

theorem isForm_of_skipString? (h : skipString? b = some rest) : IsForm b rest := by
  fun_induction skipString? b with
  | case2 more =>
      cases h
      exact .close _
  | case4 x more hquote hcontrol hslash ih => exact .plain hquote hslash hcontrol (ih h)
  | case6 x hquote hcontrol hslash e more he hshort ih =>
      obtain rfl : x = 0x5c := Decidable.not_not.mp hslash
      exact .short hshort (ih h)
  | case8 x hquote hcontrol hslash e he h₁ h₂ h₃ h₄ more hnumber ih =>
      obtain rfl : x = 0x5c := Decidable.not_not.mp hslash
      obtain rfl : e = 0x75 := Decidable.not_not.mp he
      exact .number hnumber (ih h)
  | _ => cases h

theorem skipString?_of_isForm (h : IsForm b rest) : skipString? b = some rest := by
  induction h with
  | close rest =>
      rw [skipString?.eq_def]
      simp
  | plain hquote hslash hcontrol _ ih =>
      rw [skipString?.eq_def]
      simp [hquote, hslash, hcontrol, ih]
  | @short e b rest he _ ih =>
      have hne : e ≠ 0x75 := by
        rintro rfl
        cases he
      rw [skipString?.eq_def]
      simp [hne, he, ih]
  | number hnumber _ ih =>
      rw [skipString?.eq_def]
      simp [hnumber, ih]

theorem skipString?_eq_some_iff : skipString? b = some rest ↔ IsForm b rest :=
  ⟨isForm_of_skipString?, skipString?_of_isForm⟩

theorem IsForm.length_lt (h : IsForm b rest) : rest.length < b.length := by
  induction h with
  | close rest => exact Nat.lt_succ_self _
  | _ =>
      simp only [List.length_cons]
      omega

theorem IsForm.append (h : IsForm b rest) (q : Bytes) : IsForm (b ++ q) (rest ++ q) := by
  induction h with
  | close rest => exact .close _
  | plain hquote hslash hcontrol _ ih => exact .plain hquote hslash hcontrol ih
  | short he _ ih => exact .short he ih
  | number hnumber _ ih => exact .number hnumber ih

end Json
end CredentialServer
