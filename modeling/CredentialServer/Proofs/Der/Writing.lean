import CredentialServer.Proofs.Der.Reading

/-! # What is written is read back

A number is written in as few octets as it needs, so its width bounds it from both sides
(`lt_limit_widthOf`, `limit_le_of_ne_zero`).  The octets of a length are a prefix code, hence a
value that was written is read back whatever follows it (`read?_encode`), and octets that were read
and could have been written are the value that was read (`eq_of_raw_eq_encode`). -/

namespace CredentialServer

/-! ### Numbers -/

namespace Bytes

theorem limit_eq (width : Nat) : limit width = Nat.pow 2 (8 * width) := by
  induction width with
  | zero => rfl
  | succ width ih =>
      rw [limit, ih, Nat.mul_succ]
      exact (Nat.pow_add 2 (8 * width) 8).symm

theorem limit_le_limit {a b : Nat} (h : a ≤ b) : limit a ≤ limit b := by
  rw [limit_eq, limit_eq]
  exact Nat.pow_le_pow_right (by decide) (Nat.mul_le_mul_left 8 h)

theorem limit_pos (width : Nat) : 0 < limit width := by
  rw [limit_eq]
  exact Nat.pow_pos (by decide)

theorem lt_limit_widthOf (n : Nat) : n < limit (widthOf n) := by
  unfold widthOf
  split
  · next h => simp [h, limit]
  · have hlt : n < Nat.pow 2 (n.log2 + 1) := Nat.lt_log2_self
    have hle : Nat.pow 2 (n.log2 + 1) ≤ Nat.pow 2 (8 * (n.log2 / 8 + 1)) :=
      Nat.pow_le_pow_right (by decide) (by omega)
    rw [limit_eq]
    exact Nat.lt_of_lt_of_le hlt hle

theorem limit_le_of_ne_zero {n : Nat} (h : n ≠ 0) : limit (widthOf n - 1) ≤ n := by
  have hle : Nat.pow 2 n.log2 ≤ n := Nat.log2_self_le h
  have hwidth : Nat.pow 2 (8 * (n.log2 / 8)) ≤ Nat.pow 2 n.log2 :=
    Nat.pow_le_pow_right (by decide) (by omega)
  rw [widthOf, if_neg h, Nat.add_sub_cancel, limit_eq]
  exact Nat.le_trans hwidth hle

theorem widthOf_le {n width : Nat} (h : n < limit width) : widthOf n ≤ width := by
  by_cases hn : n = 0
  · simp [hn, widthOf]
  · refine Nat.not_lt.mp fun hlt => ?_
    have hlow := limit_le_of_ne_zero hn
    have hmono : limit width ≤ limit (widthOf n - 1) := limit_le_limit (by omega)
    omega

theorem lt_widthOf {n width : Nat} (h : limit width ≤ n) : width < widthOf n := by
  refine Nat.not_le.mp fun hle => ?_
  have hfits := lt_limit_widthOf n
  have hmono := limit_le_limit hle
  omega

@[simp] theorem toNat_minimal (n : Nat) : toNat (minimal n) = n := toNat_ofNat (lt_limit_widthOf n)

@[simp] theorem length_minimal (n : Nat) : (minimal n).length = widthOf n := length_ofNat _ n

theorem prependNat_eq (width n : Nat) (tail : Bytes) :
    prependNat width n tail = ofNat width n ++ tail := by
  induction width generalizing n tail with
  | zero => rfl
  | succ width ih => rw [ofNat, prependNat, prependNat, ih, ih _ [_], List.append_assoc]; rfl

theorem ofNat_succ_eq (width n : Nat) :
    ofNat (width + 1) n = ofNat width (n / 256) ++ [UInt8.ofNat (n % 256)] := by
  rw [ofNat, prependNat, prependNat_eq]

theorem ofNat_succ (width n : Nat) :
    ofNat (width + 1) n = UInt8.ofNat (n / limit width % 256) :: ofNat width n := by
  induction width generalizing n with
  | zero => simp [ofNat, prependNat, limit]
  | succ width ih =>
      rw [ofNat_succ_eq (width + 1), ih, ofNat_succ_eq width n, limit, Nat.div_div_eq_div_mul,
        Nat.mul_comm 256, List.cons_append]

theorem head?_minimal_ne_zero {n : Nat} : (minimal n).head? ≠ some 0 := by
  by_cases h : n = 0
  · simp [h, minimal, widthOf, ofNat, prependNat]
  obtain ⟨width, hwidth⟩ : ∃ width, widthOf n = width + 1 := ⟨_, by rw [widthOf, if_neg h]⟩
  have hhigh : n < limit width * 256 := by
    have hfits := lt_limit_widthOf n
    rw [hwidth, limit] at hfits
    omega
  have hlow := limit_le_of_ne_zero h
  rw [hwidth, Nat.add_sub_cancel] at hlow
  have hlt : n / limit width < 256 := Nat.div_lt_of_lt_mul hhigh
  have hpos : 0 < n / limit width := Nat.div_pos hlow (limit_pos width)
  intro hzero
  rw [minimal, hwidth, ofNat_succ, List.head?_cons, Option.some.injEq] at hzero
  have hnat := congrArg UInt8.toNat hzero
  rw [UInt8.toNat_ofNat', UInt8.toNat_zero, Nat.mod_eq_of_lt hlt] at hnat
  omega

end Bytes

namespace Der

variable {lengths : Lengths} {tag : UInt8} {b body body' rest content header header' : Bytes}
variable {n m : Nat} {e : Element}

/-! ### Lengths -/

theorem isLength_encodeLength (h : n < UInt64.size) : IsLength lengths (encodeLength n) n := by
  unfold encodeLength
  split
  · next hshort =>
    have hx : (UInt8.ofNat n).toNat = n := by
      rw [UInt8.toNat_ofNat', Nat.mod_eq_of_lt (by omega)]
    have hlength : IsLength lengths [UInt8.ofNat n] (UInt8.ofNat n).toNat := .short (by omega)
    rwa [hx] at hlength
  · next hlong =>
    have hfits : n < Bytes.limit 8 := h
    have hwidth := Bytes.widthOf_le hfits
    have hpos : 0 < Bytes.widthOf n := Bytes.lt_widthOf (show Bytes.limit 0 ≤ n by
      rw [Bytes.limit]
      omega)
    have hx : (UInt8.ofNat (128 + Bytes.widthOf n)).toNat = 128 + (Bytes.minimal n).length := by
      rw [UInt8.toNat_ofNat', Bytes.length_minimal, Nat.mod_eq_of_lt (by omega)]
    have hlength : IsLength lengths
        (UInt8.ofNat (128 + Bytes.widthOf n) :: Bytes.minimal n) (Bytes.minimal n).toNat := by
      refine .long hx ?_ ?_ ?_ ?_
      · rw [hx, Bytes.length_minimal]
        omega
      · rw [ne_eq, ← List.length_eq_zero_iff, Bytes.length_minimal]
        omega
      · rwa [Bytes.toNat_minimal]
      · exact fun _ => ⟨by rw [Bytes.toNat_minimal]; omega, Bytes.head?_minimal_ne_zero⟩
    rwa [Bytes.toNat_minimal] at hlength

theorem IsLength.lt_size (h : IsLength lengths header n) : n < UInt64.size := by
  cases h with
  | short h => exact Nat.lt_trans h (by decide)
  | long _ _ _ hsize _ => exact hsize

theorem IsLength.length_le (h : IsLength lengths header n) : header.length ≤ 127 := by
  cases h with
  | short _ => simp
  | long hx hlt _ _ _ =>
      rw [List.length_cons]
      omega

/-- Where a length ends does not depend on what follows it. -/
theorem IsLength.append_inj (h : IsLength lengths header n) (h' : IsLength lengths header' m)
    (heq : header ++ body = header' ++ body') : header = header' ∧ n = m ∧ body = body' := by
  have hread := readLength?_append h body
  rw [heq, readLength?_append h' body'] at hread
  cases hread
  exact ⟨List.append_cancel_right heq, rfl, rfl⟩

/-! ### Values -/

/-- A value that was written is read back, whatever follows it. -/
theorem read?_encode (htag : tag &&& 0x1f ≠ 0x1f) (h : content.length < UInt64.size)
    (rest : Bytes) : read? lengths (encode tag content ++ rest) =
      some (⟨tag, content, encode tag content⟩, rest) :=
  read?_eq_some_iff.mpr ⟨rfl, htag, encodeLength content.length, rfl, isLength_encodeLength h⟩

theorem readTag?_encode (htag : tag &&& 0x1f ≠ 0x1f) (h : content.length < UInt64.size)
    (rest : Bytes) : readTag? lengths tag (encode tag content ++ rest) = some (content, rest) :=
  readTag?_eq_some_iff.mpr ⟨_, read?_encode htag h rest, rfl, rfl⟩

theorem length_lt_of_encode (h : (encode tag content).length < UInt64.size) :
    content.length < UInt64.size := by
  rw [encode, List.length_append] at h
  omega

theorem bits?_zero (octets : Bytes) : bits? (0 :: octets) = some octets := by
  unfold bits?
  cases hlast : octets.getLast? with
  | none => simp [List.getLast?_eq_none_iff.mp hlast]
  | some last => simp [hlast, Nat.mod_one]

theorem length_pos_of_encode : 0 < (encode tag content).length := by simp [encode]

theorem readUpTo_of_read? (h : read? lengths b = some (e, rest)) (count : Nat) :
    readUpTo lengths (count + 1) b = (readUpTo lengths count rest).map (e :: ·) := by
  cases b with
  | nil => cases h
  | cons x b =>
      rw [readUpTo, h]
      exact nofun

theorem readUpTo_encode {l : List (UInt8 × Bytes)} (htags : ∀ p ∈ l, p.1 &&& 0x1f ≠ 0x1f)
    (h : (l.flatMap fun p => encode p.1 p.2).length < UInt64.size) {count : Nat}
    (hcount : l.length ≤ count) : readUpTo lengths count (l.flatMap fun p => encode p.1 p.2) =
      some (l.map fun p => ⟨p.1, p.2, encode p.1 p.2⟩) := by
  induction l generalizing count with
  | nil => cases count <;> rfl
  | cons p l ih =>
      obtain ⟨htag, htags⟩ := List.forall_mem_cons.mp htags
      rw [List.flatMap_cons, List.length_append] at h
      obtain ⟨count, rfl⟩ : ∃ n, count = n + 1 :=
        ⟨count - 1, by simp only [List.length_cons] at hcount; omega⟩
      have hfirst : (encode p.1 p.2).length < UInt64.size := by omega
      have hread : read? lengths (encode p.1 p.2 ++ l.flatMap fun p => encode p.1 p.2) = _ :=
        read?_encode htag (length_lt_of_encode hfirst) _
      rw [List.flatMap_cons, readUpTo_of_read? hread,
        ih htags (by omega) (Nat.le_of_succ_le_succ hcount)]
      rfl

theorem readAll?_encode {l : List (UInt8 × Bytes)} (htags : ∀ p ∈ l, p.1 &&& 0x1f ≠ 0x1f)
    (h : (l.flatMap fun p => encode p.1 p.2).length < UInt64.size) :
    readAll? lengths (l.flatMap fun p => encode p.1 p.2) =
      some (l.map fun p => ⟨p.1, p.2, encode p.1 p.2⟩) := by
  refine readUpTo_encode htags h ?_
  clear htags h
  induction l with
  | nil => exact Nat.le_refl _
  | cons p l ih =>
      have hpos : 0 < (encode p.1 p.2).length := length_pos_of_encode
      rw [List.flatMap_cons, List.length_append, List.length_cons]
      omega

/-! ### Numbers as values -/

theorem natural?_naturalContent (n : Nat) : natural? (naturalContent n) = some n := by
  have hn := Bytes.toNat_minimal n
  have hhead := Bytes.head?_minimal_ne_zero (n := n)
  unfold naturalContent
  generalize Bytes.minimal n = digits at hn hhead
  subst hn
  cases digits with
  | nil => rfl
  | cons x digits =>
      simp only [List.headD_cons, ge_iff_le, UInt8.le_iff_toNat_le]
      have hx : x ≠ 0 := by simpa using hhead
      split
      · next hlarge =>
        have hlarge : 128 ≤ x.toNat := hlarge
        have hzero : Bytes.toNat (0 :: x :: digits) = Bytes.toNat (x :: digits) := by
          simp [Bytes.toNat]
        simp [natural?, hlarge, hzero]
      · next hsmall =>
        have hsmall : x.toNat < 128 := Nat.not_le.mp hsmall
        cases digits with
        | nil => simp [natural?, hsmall, Bytes.toNat]
        | cons y digits => simp [natural?, hsmall, hx]

/-- A number whose sign bit is free needs no octet before its digits. -/
theorem length_naturalContent_le {n width : Nat} (h : n < 128 * Bytes.limit width) :
    (naturalContent n).length ≤ width + 1 := by
  have hwidth : Bytes.widthOf n ≤ width + 1 := Bytes.widthOf_le (by rw [Bytes.limit]; omega)
  have hn := Bytes.toNat_minimal n
  have hlength := Bytes.length_minimal n
  unfold naturalContent
  generalize Bytes.minimal n = digits at hn hlength
  cases digits with
  | nil => simp
  | cons x digits =>
      simp only [List.headD_cons, ge_iff_le, UInt8.le_iff_toNat_le]
      split
      · next hlarge =>
        have hlarge : 128 ≤ x.toNat := hlarge
        have hvalue : x.toNat * Bytes.limit digits.length ≤ n := by
          rw [← hn, ← List.singleton_append, Bytes.toNat_append]
          simp [Bytes.toNat]
        have hfew : digits.length < width := by
          refine Nat.not_le.mp fun hle => ?_
          have hmono := Bytes.limit_le_limit hle
          have : 128 * Bytes.limit width ≤ x.toNat * Bytes.limit digits.length :=
            Nat.mul_le_mul hlarge hmono
          omega
        simp only [List.length_cons]
        omega
      · simp only [List.length_cons] at hlength ⊢
        omega

/-! ### What could have been written -/

/-- Contents that no length can announce are not what was read. -/
theorem length_lt_of_raw_eq_encode (h : read? .any b = some (e, rest))
    (heq : e.raw = encode tag content) : content.length < UInt64.size := by
  obtain ⟨-, -, header, hraw, hlength⟩ := read?_eq_some_iff.mp h
  refine Nat.not_le.mp fun hlarge => ?_
  rw [hraw, encode] at heq
  have hsame : header ++ e.content = encodeLength content.length ++ content :=
    (List.cons.inj heq).2
  have hsize := hlength.lt_size
  have hheader := hlength.length_le
  have hcode : encodeLength content.length =
      UInt8.ofNat (128 + Bytes.widthOf content.length) :: Bytes.minimal content.length := by
    rw [encodeLength, if_neg (Nat.not_lt.mpr (Nat.le_trans (by decide) hlarge))]
  have hcount := congrArg List.length hsame
  rw [hcode] at hsame
  simp only [List.length_append, hcode, List.length_cons, Bytes.length_minimal] at hcount
  -- The lengths of both sides leave nine octets for the length, and nine octets are too many.
  have hnine : Bytes.widthOf content.length = 9 := by
    have hlimit : UInt64.size + 127 ≤ Bytes.limit 9 := by decide
    have hfits : content.length < Bytes.limit 9 := by omega
    have hmore : Bytes.limit 8 ≤ content.length := hlarge
    exact Nat.le_antisymm (Bytes.widthOf_le hfits) (Bytes.lt_widthOf hmore)
  rw [hnine] at hsame
  generalize e.content.length = n at hlength hcount hsize
  cases hlength with
  | short hshort =>
      obtain ⟨rfl, -⟩ := List.cons.inj hsame
      exact absurd hshort (by decide)
  | @long x digits hx _ _ hdigits _ =>
      obtain ⟨rfl, hsame'⟩ := List.cons.inj hsame
      have hsame'' : digits ++ e.content = Bytes.minimal content.length ++ content := hsame'
      have hdigitsLength : digits.length = (Bytes.minimal content.length).length := by
        rw [Bytes.length_minimal, hnine]
        have hnine' : (UInt8.ofNat (128 + 9)).toNat = 137 := by decide
        omega
      obtain ⟨rfl, -⟩ := List.append_inj hsame'' hdigitsLength
      rw [Bytes.toNat_minimal] at hdigits
      omega

/-- What was read from octets that could have been written is what would have been written. -/
theorem eq_of_raw_eq_encode (h : read? .any b = some (e, rest))
    (heq : e.raw = encode tag content) : e.tag = tag ∧ e.content = content := by
  have hsize := length_lt_of_raw_eq_encode h heq
  obtain ⟨-, -, header, hraw, hlength⟩ := read?_eq_some_iff.mp h
  rw [hraw, encode] at heq
  obtain ⟨htag, hsame⟩ := List.cons.inj heq
  obtain ⟨-, -, hcontent⟩ := hlength.append_inj (isLength_encodeLength hsize) hsame
  exact ⟨htag, hcontent⟩

end Der
end CredentialServer
