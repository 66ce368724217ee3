import CredentialServer.Proofs.Der.Writing
import CredentialServer.Proofs.Text.Armour
import CredentialServer.Ssh.Certificate

/-! # Keys are read back

A reader of the wire format takes just what its writer writes: each of them is an iff between what
was read and what stands in front of the rest.  The fields of a key are read as the kind whose name
stands before them (`IsReadAs`), which may be another name than the key then goes by.  Main
statements: `readFields?_eq_some_iff`, and `isListed_of_ofLine?` for keys from lines. -/

namespace CredentialServer

/-! ### Octets -/

namespace Bytes

theorem toNat_lt (b : Bytes) : toNat b < limit b.length := by
  induction b with
  | nil => decide
  | cons x b ih =>
      have hx := x.toNat_lt
      have hvalue : toNat (x :: b) = x.toNat * limit b.length + toNat b := by
        rw [← List.singleton_append, toNat_append]
        simp [toNat]
      have hdigit : (x.toNat + 1) * limit b.length ≤ 256 * limit b.length :=
        Nat.mul_le_mul_right _ hx
      rw [List.length_cons, limit, Nat.mul_comm (limit _), hvalue]
      rw [Nat.add_mul, Nat.one_mul] at hdigit
      omega

theorem ofNat_toNat (b : Bytes) : ofNat b.length (toNat b) = b := by
  have key : ∀ l : Bytes, ofNat l.length (toNat l.reverse) = l.reverse := by
    intro l
    induction l with
    | nil => rfl
    | cons x l ih =>
        have hx := x.toNat_lt
        have hvalue : toNat (l.reverse ++ [x]) = toNat l.reverse * 256 + x.toNat := by
          rw [toNat_append]
          simp [toNat, limit]
        have hhigh : (toNat l.reverse * 256 + x.toNat) / 256 = toNat l.reverse := by omega
        have hlow : (toNat l.reverse * 256 + x.toNat) % 256 = x.toNat := by omega
        rw [List.reverse_cons, List.length_cons, hvalue, ofNat_succ_eq, hhigh, hlow, ih]
        simp
  have h := key b.reverse
  rwa [List.reverse_reverse, List.length_reverse] at h

theorem toText?_eq_some_iff {b : Bytes} {s : String} : toText? b = some s ↔ b = ofText s := by
  constructor
  · intro h
    unfold toText? String.fromUTF8? at h
    split at h
    · cases h
      rfl
    · cases h
  · rintro rfl
    exact toText?_ofText s

theorem splitAt?_eq_some_iff {n : Nat} {b first rest : Bytes} :
    splitAt? n b = some (first, rest) ↔ first.length = n ∧ b = first ++ rest := by
  unfold splitAt?
  constructor
  · intro h
    split at h
    · next hle =>
      cases h
      exact ⟨List.length_take_of_le hle, (List.take_append_drop n b).symm⟩
    · cases h
  · rintro ⟨rfl, rfl⟩
    simp

end Bytes

namespace Ssh

variable {b rest s point : Bytes} {n width : Nat} {text kind : String} {curve : CurveName}
variable {k : PublicKey}

/-! ### Strings -/

/-- A string that is not too long. -/
def IsString (s : Bytes) : Prop := s.length ≤ longest

instance (s : Bytes) : Decidable (IsString s) := inferInstanceAs (Decidable (_ ≤ _))

/-- The octets of a number that may be negative, without a needless zero. -/
def IsSigned : Bytes → Prop
  | [0] => False
  | 0 :: x :: _ => ¬ x < 0x80
  | _ => True

theorem readNat?_eq_some_iff : readNat? width b = some (n, rest) ↔
    n < Bytes.limit width ∧ b = Bytes.ofNat width n ++ rest := by
  constructor
  · intro h
    rw [readNat?, Option.map_eq_some_iff] at h
    obtain ⟨⟨digits, more⟩, hsplit, h⟩ := h
    obtain ⟨rfl, rfl⟩ := Bytes.splitAt?_eq_some_iff.mp hsplit
    cases h
    exact ⟨Bytes.toNat_lt digits, by rw [Bytes.ofNat_toNat]⟩
  · rintro ⟨hn, rfl⟩
    exact readNat?_ofNat hn rest

theorem readString?_eq_some_iff :
    readString? b = some (s, rest) ↔ IsString s ∧ b = encodeString s ++ rest := by
  constructor
  · intro h
    rw [readString?, Option.bind_eq_some_iff] at h
    obtain ⟨⟨n, more⟩, hn, h⟩ := h
    obtain ⟨-, rfl⟩ := readNat?_eq_some_iff.mp hn
    split at h
    · next hle =>
      obtain ⟨rfl, rfl⟩ := Bytes.splitAt?_eq_some_iff.mp h
      exact ⟨hle, by rw [encodeString, List.append_assoc]⟩
    · cases h
  · rintro ⟨hs, rfl⟩
    exact readString?_encode hs rest

theorem readText?_eq_some_iff : readText? b = some (text, rest) ↔
    IsString (Bytes.ofText text) ∧ b = encodeText text ++ rest := by
  constructor
  · intro h
    rw [readText?, Option.bind_eq_some_iff] at h
    obtain ⟨⟨s, more⟩, hs, h⟩ := h
    rw [Option.map_eq_some_iff] at h
    obtain ⟨t, ht, h⟩ := h
    cases h
    obtain rfl := Bytes.toText?_eq_some_iff.mp ht
    exact readString?_eq_some_iff.mp hs
  · intro h
    rw [readText?, readString?_eq_some_iff.mpr h, Option.bind_some, Bytes.toText?_ofText]
    rfl

theorem readSigned?_eq_some_iff : readSigned? b = some (s, rest) ↔
    (IsString s ∧ IsSigned s) ∧ b = encodeString s ++ rest := by
  constructor
  · intro h
    rw [readSigned?, Option.bind_eq_some_iff] at h
    obtain ⟨⟨digits, more⟩, hdigits, h⟩ := h
    obtain ⟨hs, rfl⟩ := readString?_eq_some_iff.mp hdigits
    dsimp only at h
    split at h
    · cases h
    · split at h
      · cases h
      · next hlarge =>
        cases h
        exact ⟨⟨hs, hlarge⟩, rfl⟩
    · next hsingle hdouble =>
      cases h
      refine ⟨⟨hs, ?_⟩, rfl⟩
      unfold IsSigned
      split
      · exact hsingle rfl
      · exact absurd rfl (hdouble _ _)
      · trivial
  · rintro ⟨⟨hs, hsigned⟩, rfl⟩
    rw [readSigned?, readString?_encode hs, Option.bind_some]
    simp only
    split
    · exact hsigned.elim
    · next x _ => rw [if_neg hsigned]
    · rfl

theorem of_guard_eq_some {p : Prop} [Decidable p] {u : Unit}
    (h : (guard p : Option Unit) = some u) : p := by
  unfold guard at h
  split at h
  · assumption
  · cases h

theorem readPoint?_eq_some_iff : PublicKey.readPoint? curve b = some (point, rest) ↔
    (IsString point ∧ curve.isPoint point = true) ∧
      b = encodeText curve.text ++ (encodeString point ++ rest) := by
  constructor
  · intro h
    unfold PublicKey.readPoint? at h
    obtain ⟨⟨name, more⟩, hname, h⟩ := Option.bind_eq_some_iff.mp h
    obtain ⟨_, hcurve, h⟩ := Option.bind_eq_some_iff.mp h
    obtain ⟨⟨p, rest'⟩, hp, h⟩ := Option.bind_eq_some_iff.mp h
    obtain ⟨_, hpoint, h⟩ := Option.bind_eq_some_iff.mp h
    cases h
    obtain ⟨-, rfl⟩ := readText?_eq_some_iff.mp hname
    obtain ⟨hstring, rfl⟩ := readString?_eq_some_iff.mp hp
    exact ⟨⟨hstring, of_guard_eq_some hpoint⟩, by rw [of_guard_eq_some hcurve]⟩
  · rintro ⟨⟨hstring, hpoint⟩, rfl⟩
    have hcurve : IsString (Bytes.ofText curve.text) := by cases curve <;> decide
    have hname : readText? (encodeText curve.text ++ (encodeString point ++ rest)) = _ :=
      readText?_eq_some_iff.mpr ⟨hcurve, rfl⟩
    have hp : readString? (encodeString point ++ rest) = _ :=
      readString?_eq_some_iff.mpr ⟨hstring, rfl⟩
    unfold PublicKey.readPoint? guard
    rw [hname]
    simp only [Option.bind_eq_bind, Option.bind_some, hp, hpoint, if_true]
    rfl

theorem readTexts?_of_readText? (h : readText? b = some (text, rest)) (count : Nat) :
    readTexts? (count + 1) b = (readTexts? count rest).map (text :: ·) := by
  cases b with
  | nil => cases h
  | cons x b =>
      rw [readTexts?, h]
      · rfl
      · exact nofun

/-! ### What is written is read back -/

theorem readText?_encode (h : IsString (Bytes.ofText text)) (rest : Bytes) :
    readText? (encodeText text ++ rest) = some (text, rest) :=
  readText?_eq_some_iff.mpr ⟨h, rfl⟩

theorem readSigned?_encode (h : IsString s ∧ IsSigned s) (rest : Bytes) :
    readSigned? (encodeString s ++ rest) = some (s, rest) :=
  readSigned?_eq_some_iff.mpr ⟨h, rfl⟩

theorem readPoint?_encode (h : IsString point ∧ curve.isPoint point = true) (rest : Bytes) :
    PublicKey.readPoint? curve (encodeText curve.text ++ (encodeString point ++ rest)) =
      some (point, rest) :=
  readPoint?_eq_some_iff.mpr ⟨h, rfl⟩

theorem readTexts?_encode {l : List String} (h : ∀ t ∈ l, IsString (Bytes.ofText t)) {count : Nat}
    (hcount : l.length ≤ count) : readTexts? count (l.flatMap encodeText) = some l := by
  induction l generalizing count with
  | nil => cases count <;> rfl
  | cons t l ih =>
      obtain ⟨ht, hl⟩ := List.forall_mem_cons.mp h
      obtain ⟨count, rfl⟩ : ∃ n, count = n + 1 :=
        ⟨count - 1, by simp only [List.length_cons] at hcount; omega⟩
      rw [List.flatMap_cons, readTexts?_of_readText? (readText?_encode ht _),
        ih hl (Nat.le_of_succ_le_succ hcount)]
      rfl

/-! ### Keys -/

namespace PublicKey

/-- A number of a key as it is written. -/
abbrev IsNumber (s : Bytes) : Prop := IsString s ∧ IsSigned s

/-- A point of a key as it is written. -/
abbrev IsPoint (curve : CurveName) (point : Bytes) : Prop :=
  IsString point ∧ curve.isPoint point = true

/-- The keys that are read behind the name of a kind. -/
inductive IsReadAs : String → PublicKey → Prop where
  | rsa {kind : String} {e n : Bytes} (hkind : kind ∈ ["ssh-rsa", "rsa-sha2-256", "rsa-sha2-512"])
      (he : IsNumber e) (hn : IsNumber n) : IsReadAs kind (.rsa e n)
  | dsa {p q g y : Bytes} (hp : IsNumber p) (hq : IsNumber q) (hg : IsNumber g) (hy : IsNumber y) :
      IsReadAs "ssh-dss" (.dsa p q g y)
  | ecdsa {curve : CurveName} {point : Bytes} (hpoint : IsPoint curve point) :
      IsReadAs ("ecdsa-sha2-" ++ curve.text) (.ecdsa curve point)
  | ed25519 {key : Bytes} (hkey : key.length = 32) : IsReadAs "ssh-ed25519" (.ed25519 key)
  | tokenEcdsa {point : Bytes} {application : String} (hpoint : IsPoint .p256 point)
      (happlication : IsString (Bytes.ofText application)) :
      IsReadAs "sk-ecdsa-sha2-nistp256@openssh.com" (.tokenEcdsa point application)
  | tokenEd25519 {key : Bytes} {application : String} (hkey : key.length = 32)
      (happlication : IsString (Bytes.ofText application)) :
      IsReadAs "sk-ssh-ed25519@openssh.com" (.tokenEd25519 key application)
  | other {name : String} {data : Bytes} (hname : isForeignName name = true)
      (hecdsa : name ≠ "sk-ecdsa-sha2-nistp256@openssh.com")
      (hed25519 : name ≠ "sk-ssh-ed25519@openssh.com") (hdata : IsString data) :
      IsReadAs name (.other name data)

theorem isString_of_length {key : Bytes} (h : key.length = 32) : IsString key := by
  rw [IsString, h]
  decide

theorem isReadAs_of_readFields? (h : readFields? kind b = some (k, rest)) :
    IsReadAs kind k ∧ b = k.fields ++ rest := by
  unfold readFields? guard at h
  split at h
  · next hkind =>
    obtain ⟨⟨e, more⟩, he, h⟩ := Option.bind_eq_some_iff.mp h
    obtain ⟨⟨n, more'⟩, hn, h⟩ := Option.bind_eq_some_iff.mp h
    cases h
    obtain ⟨he', rfl⟩ := readSigned?_eq_some_iff.mp he
    obtain ⟨hn', rfl⟩ := readSigned?_eq_some_iff.mp hn
    exact ⟨.rsa hkind he' hn', by rw [fields, List.append_assoc]⟩
  split at h
  · next hkind =>
    obtain ⟨⟨p, more⟩, hp, h⟩ := Option.bind_eq_some_iff.mp h
    obtain ⟨⟨q, more⟩, hq, h⟩ := Option.bind_eq_some_iff.mp h
    obtain ⟨⟨g, more⟩, hg, h⟩ := Option.bind_eq_some_iff.mp h
    obtain ⟨⟨y, more⟩, hy, h⟩ := Option.bind_eq_some_iff.mp h
    cases h
    obtain ⟨hp', rfl⟩ := readSigned?_eq_some_iff.mp hp
    obtain ⟨hq', rfl⟩ := readSigned?_eq_some_iff.mp hq
    obtain ⟨hg', rfl⟩ := readSigned?_eq_some_iff.mp hg
    obtain ⟨hy', rfl⟩ := readSigned?_eq_some_iff.mp hy
    subst hkind
    exact ⟨.dsa hp' hq' hg' hy', by simp only [fields, List.append_assoc]⟩
  split at h
  · next hkind =>
    obtain ⟨⟨key, more⟩, hkey, h⟩ := Option.bind_eq_some_iff.mp h
    obtain ⟨_, hlength, h⟩ := Option.bind_eq_some_iff.mp h
    cases h
    obtain ⟨-, rfl⟩ := readString?_eq_some_iff.mp hkey
    subst hkind
    exact ⟨.ed25519 (of_guard_eq_some hlength), rfl⟩
  split at h
  · next hkind =>
    obtain ⟨⟨key, more⟩, hkey, h⟩ := Option.bind_eq_some_iff.mp h
    obtain ⟨_, hlength, h⟩ := Option.bind_eq_some_iff.mp h
    obtain ⟨⟨application, more⟩, happlication, h⟩ := Option.bind_eq_some_iff.mp h
    cases h
    obtain ⟨-, rfl⟩ := readString?_eq_some_iff.mp hkey
    obtain ⟨happlication', rfl⟩ := readText?_eq_some_iff.mp happlication
    subst hkind
    exact ⟨.tokenEd25519 (of_guard_eq_some hlength) happlication', by
      rw [fields, List.append_assoc]⟩
  split at h
  · next hkind =>
    obtain ⟨⟨point, more⟩, hpoint, h⟩ := Option.bind_eq_some_iff.mp h
    obtain ⟨⟨application, more⟩, happlication, h⟩ := Option.bind_eq_some_iff.mp h
    cases h
    obtain ⟨hpoint', rfl⟩ := readPoint?_eq_some_iff.mp hpoint
    obtain ⟨happlication', rfl⟩ := readText?_eq_some_iff.mp happlication
    subst hkind
    exact ⟨.tokenEcdsa hpoint' happlication', by simp only [fields, List.append_assoc]⟩
  split at h
  · next curve hcurve =>
    obtain ⟨⟨point, more⟩, hpoint, h⟩ := Option.bind_eq_some_iff.mp h
    cases h
    obtain ⟨hpoint', rfl⟩ := readPoint?_eq_some_iff.mp hpoint
    have hkind := List.find?_some hcurve
    obtain rfl := of_decide_eq_true hkind
    exact ⟨.ecdsa hpoint', by rw [fields, List.append_assoc]⟩
  · next hed25519 hecdsa _ _ =>
    obtain ⟨_, hname, h⟩ := Option.bind_eq_some_iff.mp h
    obtain ⟨⟨data, more⟩, hdata, h⟩ := Option.bind_eq_some_iff.mp h
    cases h
    obtain ⟨hdata', rfl⟩ := readString?_eq_some_iff.mp hdata
    exact ⟨.other (of_guard_eq_some hname) hecdsa hed25519 hdata', rfl⟩

theorem ne_of_isForeignName {name plain : String} (h : isForeignName name = true)
    (hplain : isForeignName plain = false) : name ≠ plain := by
  rintro rfl
  rw [h] at hplain
  cases hplain

/-- A key that can be read is read back behind the name of its kind. -/
theorem IsReadAs.readFields?_append (h : IsReadAs kind k) (rest : Bytes) :
    readFields? kind (k.fields ++ rest) = some (k, rest) := by
  unfold readFields? guard
  cases h with
  | rsa hkind he hn =>
      rw [if_pos hkind]
      simp only [fields, List.append_assoc, readSigned?_encode he, readSigned?_encode hn,
        Option.bind_eq_bind, Option.bind_some]
      rfl
  | dsa hp hq hg hy =>
      rw [if_neg (by decide), if_pos rfl]
      simp only [fields, List.append_assoc, readSigned?_encode hp, readSigned?_encode hq,
        readSigned?_encode hg, readSigned?_encode hy, Option.bind_eq_bind, Option.bind_some]
      rfl
  | @ecdsa curve point hpoint =>
      have hplain : "ecdsa-sha2-" ++ curve.text ∉ ["ssh-rsa", "rsa-sha2-256", "rsa-sha2-512"] ∧
          "ecdsa-sha2-" ++ curve.text ≠ "ssh-dss" ∧ "ecdsa-sha2-" ++ curve.text ≠ "ssh-ed25519" ∧
          "ecdsa-sha2-" ++ curve.text ≠ "sk-ssh-ed25519@openssh.com" ∧
          "ecdsa-sha2-" ++ curve.text ≠ "sk-ecdsa-sha2-nistp256@openssh.com" ∧
          [CurveName.p256, .p384, .p521].find? (fun c => "ecdsa-sha2-" ++ c.text =
            "ecdsa-sha2-" ++ curve.text) = some curve := by
        cases curve <;> decide
      obtain ⟨hrsa, hdsa, hed25519, htoken, htoken', hcurve⟩ := hplain
      rw [if_neg hrsa, if_neg hdsa, if_neg hed25519, if_neg htoken, if_neg htoken', hcurve]
      simp only [fields, List.append_assoc, readPoint?_encode hpoint, Option.bind_eq_bind,
        Option.bind_some]
      rfl
  | ed25519 hkey =>
      rw [if_neg (by decide), if_neg (by decide), if_pos rfl]
      simp only [fields, readString?_encode (isString_of_length hkey), Option.bind_eq_bind,
        Option.bind_some, hkey, if_true]
      rfl
  | tokenEcdsa hpoint happlication =>
      rw [if_neg (by decide), if_neg (by decide), if_neg (by decide), if_neg (by decide),
        if_pos rfl]
      simp only [fields, List.append_assoc, readPoint?_encode hpoint,
        readText?_encode happlication, Option.bind_eq_bind, Option.bind_some]
      rfl
  | tokenEd25519 hkey happlication =>
      rw [if_neg (by decide), if_neg (by decide), if_neg (by decide), if_pos rfl]
      simp only [fields, List.append_assoc, readString?_encode (isString_of_length hkey),
        readText?_encode happlication, Option.bind_eq_bind, Option.bind_some, hkey, if_true]
      rfl
  | other hname hecdsa hed25519 hdata =>
      have hrsa : kind ∉ ["ssh-rsa", "rsa-sha2-256", "rsa-sha2-512"] := by
        simp only [List.mem_cons, List.not_mem_nil, or_false, not_or]
        exact ⟨ne_of_isForeignName hname (by decide), ne_of_isForeignName hname (by decide),
          ne_of_isForeignName hname (by decide)⟩
      have hcurve : [CurveName.p256, .p384, .p521].find?
          (fun c => "ecdsa-sha2-" ++ c.text = kind) = none := by
        rw [List.find?_eq_none]
        intro curve _ heq
        refine ne_of_isForeignName hname ?_ (of_decide_eq_true heq).symm
        cases curve <;> decide
      rw [if_neg hrsa, if_neg (ne_of_isForeignName hname (by decide)),
        if_neg (ne_of_isForeignName hname (by decide)), if_neg hed25519, if_neg hecdsa, hcurve]
      simp only [fields, readString?_encode hdata, Option.bind_eq_bind, Option.bind_some, hname,
        if_true]
      rfl

theorem IsReadAs.kind_eq (h : IsReadAs kind k) : IsReadAs k.kind k := by
  cases h with
  | rsa hkind he hn => exact .rsa (List.mem_cons_self) he hn
  | dsa hp hq hg hy => exact .dsa hp hq hg hy
  | ecdsa hpoint => exact .ecdsa hpoint
  | ed25519 hkey => exact .ed25519 hkey
  | tokenEcdsa hpoint happlication => exact .tokenEcdsa hpoint happlication
  | tokenEd25519 hkey happlication => exact .tokenEd25519 hkey happlication
  | other hname hecdsa hed25519 hdata => exact .other hname hecdsa hed25519 hdata

/-- **Fields of a key are read just as they were written**, behind the name of its kind. -/
theorem readFields?_eq_some_iff :
    readFields? kind b = some (k, rest) ↔ IsReadAs kind k ∧ b = k.fields ++ rest := by
  constructor
  · exact isReadAs_of_readFields?
  · rintro ⟨h, rfl⟩
    exact h.readFields?_append rest

end PublicKey

/-! ### Words of lines -/

namespace PublicKey

section Words

variable {name : List Char}

theorem isBlank_of_isSegmentChar {c : Char} (h : isSegmentChar c = true) :
    isBlank c = false := by
  unfold isSegmentChar at h
  rw [Bool.or_eq_true] at h
  rcases h with h | h
  · have hcode : 48 ≤ c.toNat ∧ c.toNat ≤ 122 := by
      unfold Char.isAlphanum Char.isAlpha Char.isUpper Char.isLower Char.isDigit at h
      simp only [Bool.or_eq_true, Bool.and_eq_true, decide_eq_true_eq, ge_iff_le,
        UInt32.le_iff_toNat_le, Char.toNat_val, Char.reduceToNat] at h
      omega
    simp only [isBlank, Bool.or_eq_false_iff, decide_eq_false_iff_not, beq_eq_false_iff_ne]
    omega
  · have all : "+-/=@.".toList.all (fun c => isBlank c == false) = true := by decide
    exact eq_of_beq (List.all_eq_true.mp all c (List.contains_iff_mem.mp h))

theorem isSegmentChar_of_mem_encodePadded {c : Char}
    (h : c ∈ Base64.standard.encodePadded b) : isSegmentChar c = true := by
  have all : ∀ i : Fin 64, isSegmentChar (Base64.standard.digit i) = true := by decide
  rcases List.mem_append.mp h with h | h
  · obtain ⟨n, hn, rfl⟩ := Base64.exists_digit_of_mem_encode h
    exact all ⟨n, hn⟩
  · rw [List.eq_of_mem_replicate h]
    decide

theorem readSegment?_append (hne : name ≠ []) (h : ∀ c ∈ name, isSegmentChar c = true)
    (s : List Char) : readSegment? (name ++ ' ' :: s) = some (name, s) := by
  have htake : (name ++ ' ' :: s).takeWhile isSegmentChar = name := by
    rw [List.takeWhile_append_of_pos h]
    simp [show isSegmentChar ' ' = false by decide]
  have hempty : ¬ name.isEmpty = true := by rwa [List.isEmpty_iff]
  unfold readSegment?
  simp only [htake, if_neg hempty, List.drop_left]

theorem readSegment?_self (hne : name ≠ []) (h : ∀ c ∈ name, isSegmentChar c = true) :
    readSegment? name = some (name, []) := by
  have htake : (name ++ []).takeWhile isSegmentChar = name ++ [] :=
    List.takeWhile_append_of_pos h
  rw [List.append_nil] at htake
  have hempty : ¬ name.isEmpty = true := by rwa [List.isEmpty_iff]
  unfold readSegment?
  simp only [htake, if_neg hempty, List.drop_length]

/-- A name and the digits of some octets, with a space between, are found where they stand. -/
theorem readSegment?_line (hne : name ≠ []) (h : ∀ c ∈ name, isSegmentChar c = true)
    (hb : b ≠ []) :
    let digits := Base64.standard.encodePadded b
    trimEnd (name ++ ' ' :: digits) = name ++ ' ' :: digits ∧
      readSegment? (name ++ ' ' :: digits) = some (name, digits) ∧
      readSegment? digits = some (digits, []) := by
  have hdigits : Base64.standard.encodePadded b ≠ [] := by
    intro hnil
    have hread := Base64.decodePadded?_encodePadded .standard b
    rw [hnil] at hread
    exact hb (Option.some.inj hread).symm
  refine ⟨?_, readSegment?_append hne h _, readSegment?_self hdigits fun _ => ?_⟩
  · rw [← List.singleton_append, ← List.append_assoc]
    refine Pem.trimEnd_append hdigits ?_ _
    exact fun _ hc => isBlank_of_isSegmentChar (isSegmentChar_of_mem_encodePadded hc)
  · exact isSegmentChar_of_mem_encodePadded

theorem feed_not_mem_line (h : ∀ c ∈ name, isSegmentChar c = true) (b : Bytes) :
    '\n' ∉ name ++ ' ' :: Base64.standard.encodePadded b := by
  have hfeed : isSegmentChar '\n' = false := by decide
  rw [List.mem_append, List.mem_cons]
  rintro (hmem | heq | hmem)
  · exact absurd (h _ hmem) (by simp [hfeed])
  · cases heq
  · exact absurd (isSegmentChar_of_mem_encodePadded hmem) (by simp [hfeed])

end Words

end PublicKey

/-! ### Keys of lines -/

namespace PublicKey

/-- The kinds that a key may be read as: its own, or another name of the first. -/
theorem IsReadAs.kind_eq_or (h : IsReadAs kind k) : k.kind = kind ∨ k.kind = "ssh-rsa" := by
  cases h with
  | rsa hkind he hn => exact .inr rfl
  | dsa hp hq hg hy => exact .inl rfl
  | ecdsa hpoint => exact .inl rfl
  | ed25519 hkey => exact .inl rfl
  | tokenEcdsa hpoint happlication => exact .inl rfl
  | tokenEd25519 hkey happlication => exact .inl rfl
  | other hname hecdsa hed25519 hdata => exact .inl rfl

theorem isString_of_utf8ByteSize (h : text.utf8ByteSize ≤ 48) : IsString (Bytes.ofText text) := by
  have hlength : (Bytes.ofText text).length = text.utf8ByteSize := rfl
  rw [IsString, hlength]
  exact Nat.le_trans h (by decide)

theorem read?_eq_some_iff : read? b = some (k, rest) ↔
    ∃ kind, kind.utf8ByteSize ≤ 48 ∧ IsReadAs kind k ∧
      b = encodeText kind ++ (k.fields ++ rest) := by
  constructor
  · intro h
    obtain ⟨⟨kind, more⟩, hkind, hfields⟩ := Option.bind_eq_some_iff.mp h
    obtain ⟨⟨name, more'⟩, hname, hkind⟩ := Option.bind_eq_some_iff.mp hkind
    obtain ⟨_, hshort, hkind⟩ := Option.bind_eq_some_iff.mp hkind
    cases hkind
    obtain ⟨-, rfl⟩ := readText?_eq_some_iff.mp hname
    obtain ⟨hk, rfl⟩ := readFields?_eq_some_iff.mp hfields
    exact ⟨kind, of_guard_eq_some hshort, hk, rfl⟩
  · rintro ⟨kind, hshort, hk, rfl⟩
    unfold read? readKind? guard
    simp only [readText?_encode (isString_of_utf8ByteSize hshort), hshort, if_true,
      Option.bind_eq_bind, Option.bind_some, Option.pure_def, hk.readFields?_append]

theorem ofBytes?_eq_some_iff : ofBytes? b = some k ↔
    ∃ kind, kind.utf8ByteSize ≤ 48 ∧ IsReadAs kind k ∧ b = encodeText kind ++ k.fields := by
  have hall : ofBytes? b = some k ↔ read? b = some (k, []) := by
    unfold ofBytes?
    split
    · next k' hread => simp [hread]
    · next hread =>
      simp only [reduceCtorEq, false_iff]
      exact hread k
  rw [hall, read?_eq_some_iff]
  simp only [List.append_nil]

/-- Keys that can stand in a line. -/
structure IsListed (k : PublicKey) : Prop where
  readable : IsReadAs k.kind k
  short : k.kind.utf8ByteSize ≤ 48
  segment : ∀ c ∈ k.kind.toList, isSegmentChar c = true

theorem IsListed.ofBytes?_encode (h : k.IsListed) : ofBytes? k.encode = some k :=
  ofBytes?_eq_some_iff.mpr ⟨k.kind, h.short, h.readable, rfl⟩

theorem isSegmentChar_of_readSegment? {s segment rest : List Char}
    (h : readSegment? s = some (segment, rest)) : ∀ c ∈ segment, isSegmentChar c = true := by
  have hsegment : segment = s.takeWhile isSegmentChar := by
    unfold readSegment? at h
    dsimp only at h
    split at h
    · cases h
    · split at h
      · cases h
        rfl
      · cases h
        rfl
      · cases h
  rw [hsegment, ← List.all_eq_true]
  exact List.all_takeWhile

theorem IsReadAs.kind_ne_nil (h : IsReadAs kind k) : k.kind.toList ≠ [] := by
  cases h with
  | rsa hkind he hn => simp [PublicKey.kind]
  | dsa hp hq hg hy => simp [PublicKey.kind]
  | ecdsa hpoint => simp [PublicKey.kind]
  | ed25519 hkey => simp [PublicKey.kind]
  | tokenEcdsa hpoint happlication => simp [PublicKey.kind]
  | tokenEd25519 hkey happlication => simp [PublicKey.kind]
  | other hname hecdsa hed25519 hdata =>
      intro hnil
      have hempty : kind = "" := by
        rw [← String.toList_inj]
        exact hnil
      rw [hempty] at hname
      exact absurd hname (by decide)

theorem IsListed.encode_ne_nil (h : k.IsListed) : k.encode ≠ [] := by
  intro hnil
  have hread := h.ofBytes?_encode
  rw [hnil] at hread
  cases hread

theorem toList_line (k : PublicKey) :
    k.line.toList = k.kind.toList ++ ' ' :: Base64.standard.encodePadded k.encode := by
  simp [line, String.toList_append]

theorem IsListed.ofLine?_line (h : k.IsListed) : ofLine? k.line.toList = some k := by
  obtain ⟨htrim, hname, hdigits⟩ :=
    readSegment?_line h.readable.kind_ne_nil h.segment h.encode_ne_nil
  unfold ofLine? guard
  rw [toList_line]
  simp only [htrim, hname, hdigits, Base64.decodePadded?_encodePadded, h.ofBytes?_encode, if_true,
    Option.bind_eq_bind, Option.bind_some]
  rfl

/-- A number that is not negative is written without needless zeros. -/
theorem isSigned_signedOctets (n : Nat) : IsSigned (signedOctets n) := by
  have hhead := Bytes.head?_minimal_ne_zero (n := n)
  unfold signedOctets
  generalize Bytes.minimal n = digits at hhead ⊢
  cases digits with
  | nil => trivial
  | cons x rest =>
      by_cases hlow : (x :: rest).headD 0 < 0x80
      · rw [if_pos hlow]
        unfold IsSigned
        split
        · next heq =>
          rw [heq] at hhead
          exact hhead rfl
        · next heq =>
          rw [heq] at hhead
          exact absurd rfl hhead
        · trivial
      · rw [if_neg hlow]
        exact hlow

theorem isListed_ofRsa {k : Rsa.PublicKey} (he : IsString (signedOctets k.exponent))
    (hn : IsString (signedOctets k.modulus)) : (ofRsa k).IsListed where
  readable := .rsa List.mem_cons_self ⟨he, isSigned_signedOctets _⟩ ⟨hn, isSigned_signedOctets _⟩
  short := by
    show "ssh-rsa".utf8ByteSize ≤ 48
    decide
  segment := by
    have all : "ssh-rsa".toList.all isSegmentChar = true := by decide
    exact List.all_eq_true.mp all

/-- **Keys from lines can be written and read again.** -/
theorem isListed_of_ofLine? {line : List Char} (h : ofLine? line = some k) : k.IsListed := by
  obtain ⟨⟨kind, s⟩, hkind, h⟩ := Option.bind_eq_some_iff.mp h
  obtain ⟨⟨digits, s'⟩, hdigits, h⟩ := Option.bind_eq_some_iff.mp h
  obtain ⟨data, hdata, h⟩ := Option.bind_eq_some_iff.mp h
  obtain ⟨key, hkey, h⟩ := Option.bind_eq_some_iff.mp h
  obtain ⟨_, hname, h⟩ := Option.bind_eq_some_iff.mp h
  cases h
  obtain ⟨name, hshort, hread, -⟩ := ofBytes?_eq_some_iff.mp hkey
  refine ⟨hread.kind_eq, ?_, ?_⟩
  · rcases hread.kind_eq_or with heq | heq
    · rwa [heq]
    · rw [heq]
      decide
  · rw [of_guard_eq_some hname]
    exact isSegmentChar_of_readSegment? hkind

end PublicKey

end Ssh
end CredentialServer
