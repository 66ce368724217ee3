import CredentialServer.Text.Pem

/-! # Armour is read back

Three readers take armour apart, each in its own way, and all three give back what was put in:
`scan?_write`, `find?_write` and `strict?_write`.  All of them see the armour as `rows` of digits
between two lines with a label; the digits have neither dashes nor blanks, which is what the readers
look for.  Two of them skip what stands before the armour and ignore what follows it (`within`). -/

namespace CredentialServer

/-! ### Base 64 with padding -/

namespace Base64

theorem exists_digit_of_mem_encode {alphabet : Base64} {b : Bytes} {c : Char}
    (h : c ∈ alphabet.encode b) : ∃ n < 64, c = alphabet.digit n := by
  induction b using encode.induct with
  | case1 => cases h
  | case2 x =>
      have := x.toNat_lt
      simp only [encode, List.mem_cons, List.not_mem_nil, or_false] at h
      rcases h with h | h <;> exact ⟨_, by omega, h⟩
  | case3 x y =>
      have := x.toNat_lt
      have := y.toNat_lt
      simp only [encode, List.mem_cons, List.not_mem_nil, or_false] at h
      rcases h with h | h | h <;> exact ⟨_, by omega, h⟩
  | case4 x y z rest ih =>
      have := x.toNat_lt
      have := y.toNat_lt
      have := z.toNat_lt
      simp only [encode, List.mem_cons] at h
      rcases h with h | h | h | h | h
      · exact ⟨_, by omega, h⟩
      · exact ⟨_, by omega, h⟩
      · exact ⟨_, by omega, h⟩
      · exact ⟨_, by omega, h⟩
      · exact ih h

theorem digit_ne_pad (alphabet : Base64) {n : Nat} (h : n < 64) : alphabet.digit n ≠ '=' := by
  have all : ∀ a : Base64, ∀ i : Fin 64, a.digit i ≠ '=' := by
    intro a
    cases a <;> decide
  exact all alphabet ⟨n, h⟩

theorem decodePadded?_encodePadded (alphabet : Base64) (b : Bytes) :
    alphabet.decodePadded? (alphabet.encodePadded b) = some b := by
  induction b using encode.induct with
  | case1 => rfl
  | case2 x =>
      have h := decode?_encode alphabet [x]
      simp only [encode, decode?] at h
      simp [encodePadded, encode, decodePadded?, List.replicate, h]
  | case3 x y =>
      have hy := y.toNat_lt
      have h := decode?_encode alphabet [x, y]
      simp only [encode, decode?] at h
      have hpad := digit_ne_pad alphabet (show y.toNat % 16 * 4 < 64 by omega)
      simp [encodePadded, encode, decodePadded?, h, hpad]
  | case4 x y z rest ih =>
      have hz := z.toNat_lt
      have h := decode?_encode alphabet [x, y, z]
      simp only [encode, decode?] at h
      have hquad : alphabet.quad? (alphabet.digit (x.toNat / 4))
          (alphabet.digit (x.toNat % 4 * 16 + y.toNat / 16))
          (alphabet.digit (y.toNat % 16 * 4 + z.toNat / 64)) (alphabet.digit (z.toNat % 64)) =
          some [x, y, z] := by
        split at h
        · cases h
        · next group hgroup =>
          rw [hgroup]
          simpa using h
      have hpad := digit_ne_pad alphabet (show z.toNat % 64 < 64 by omega)
      have htail : alphabet.encodePadded (x :: y :: z :: rest) =
          alphabet.digit (x.toNat / 4) :: alphabet.digit (x.toNat % 4 * 16 + y.toNat / 16) ::
            alphabet.digit (y.toNat % 16 * 4 + z.toNat / 64) :: alphabet.digit (z.toNat % 64) ::
            alphabet.encodePadded rest := by
        unfold encodePadded
        have hmod : (x :: y :: z :: rest).length % 3 = rest.length % 3 := by
          simp only [List.length_cons]
          omega
        rw [hmod]
        rfl
      rw [htail, decodePadded?]
      simp [hpad, hquad, ih]

end Base64

namespace Pem

/-! ### The digits and their rows -/

/-- Whether a character is neither a dash nor a blank and takes one octet. -/
def isBodyChar (c : Char) : Bool := c.toNat ≤ 127 && c ≠ '-' && !isBlank c

theorem isBodyChar_of_mem {content : Bytes} {c : Char}
    (h : c ∈ Base64.standard.encodePadded content) : isBodyChar c = true := by
  unfold Base64.encodePadded at h
  rcases List.mem_append.mp h with h | h
  · obtain ⟨n, hn, rfl⟩ := Base64.exists_digit_of_mem_encode h
    have all : ∀ i : Fin 64, isBodyChar (Base64.standard.digit i) = true := by decide
    exact all ⟨n, hn⟩
  · obtain rfl := List.eq_of_mem_replicate h
    decide

/-- The rows of a text, each of one width but the last one, which may be shorter. -/
def rows (width : Nat) : Nat → List Char → List (List Char)
  | 0, _ => []
  | count + 1, s => if s.isEmpty then [] else s.take width :: rows width count (s.drop width)

/-- Lines with the line feeds that end them. -/
def ended (lines : List (List Char)) : List Char := lines.flatMap (· ++ ['\n'])

theorem ended_cons (line : List Char) (lines : List (List Char)) :
    ended (line :: lines) = line ++ '\n' :: ended lines := by
  simp [ended]

theorem ended_append (a b : List (List Char)) : ended (a ++ b) = ended a ++ ended b := by
  simp [ended]

theorem wrap_eq (width count : Nat) (s : List Char) :
    wrap width count s = ended (rows width count s) := by
  induction count generalizing s with
  | zero => rfl
  | succ count ih =>
      unfold wrap rows
      by_cases hs : s.isEmpty = true
      · rw [if_pos hs, if_pos hs]
        rfl
      · rw [if_neg hs, if_neg hs, ended_cons, ih]

section
variable {width : Nat} (hwidth : 0 < width)
include hwidth

theorem flatten_rows {count : Nat} {s : List Char} (h : s.length ≤ count) :
    (rows width count s).flatten = s := by
  induction count generalizing s with
  | zero =>
      rw [List.length_eq_zero_iff.mp (Nat.le_zero.mp h)]
      rfl
  | succ count ih =>
      unfold rows
      cases s with
      | nil => rfl
      | cons c s =>
          have hlength : ((c :: s).drop width).length ≤ count := by
            rw [List.length_drop]
            simp only [List.length_cons] at h ⊢
            omega
          rw [if_neg (by simp), List.flatten_cons, ih hlength, List.take_append_drop]

theorem mem_rows {count : Nat} {s row : List Char} (h : row ∈ rows width count s) :
    row ≠ [] ∧ ∀ c ∈ row, c ∈ s := by
  induction count generalizing s with
  | zero => cases h
  | succ count ih =>
      unfold rows at h
      cases s with
      | nil => cases h
      | cons c s =>
          rw [if_neg (by simp)] at h
          rcases List.mem_cons.mp h with rfl | h
          · constructor
            · obtain ⟨n, rfl⟩ := Nat.exists_eq_succ_of_ne_zero (Nat.ne_of_gt hwidth)
              simp
            · exact fun d hd => List.mem_of_mem_take hd
          · obtain ⟨hne, hmem⟩ := ih h
            exact ⟨hne, fun d hd => List.mem_of_mem_drop (hmem d hd)⟩

omit hwidth in
theorem joinLines_line {line body : List Char} (hline : line.length = width) (hbody : body ≠ [])
    (n : Nat) : joinLines width (n + 1) (line ++ '\n' :: body) =
      (joinLines width n body).map (line ++ ·) := by
  have hrest : (line ++ '\n' :: body).drop width = '\n' :: body := by
    rw [← hline, List.drop_left]
  have hfirst : (line ++ '\n' :: body).take width = line := by
    rw [← hline, List.take_left]
  simp only [joinLines, hrest, hfirst, dropEol?]

/-- Rows of one width are joined to the text that they came from. -/
theorem joinLines_rows {count : Nat} {s : List Char} (hs : s ≠ []) (h : s.length ≤ count) :
    ∃ body, ended (rows width count s) = body ++ ['\n'] ∧ body ≠ [] ∧
      (∀ c ∈ body, c ∈ s ∨ c = '\n') ∧
      ∀ n, body.length < n → joinLines width n body = some s := by
  induction count generalizing s with
  | zero => exact absurd (List.length_eq_zero_iff.mp (Nat.le_zero.mp h)) hs
  | succ count ih =>
      unfold rows
      rw [if_neg (by simpa using hs), ended_cons]
      by_cases hdrop : s.drop width = []
      · have htake : s.take width = s :=
          List.take_of_length_le (List.drop_eq_nil_iff.mp hdrop)
        have hrows : rows width count [] = [] := by cases count <;> rfl
        refine ⟨s, ?_, hs, fun c hc => .inl hc, ?_⟩
        · rw [hdrop, hrows, htake]
          rfl
        · intro n hn
          obtain ⟨n, rfl⟩ := Nat.exists_eq_succ_of_ne_zero (Nat.ne_of_gt (Nat.zero_lt_of_lt hn))
          simp only [joinLines, hdrop]
      · have hlength : (s.drop width).length ≤ count := by
          rw [List.length_drop]
          omega
        obtain ⟨body, hended, hne, hmem, hjoin⟩ := ih hdrop hlength
        have hfull : (s.take width).length = width := by
          rw [List.length_take]
          have := mt List.drop_eq_nil_iff.mpr hdrop
          omega
        refine ⟨s.take width ++ '\n' :: body, ?_, by simp, ?_, ?_⟩
        · rw [hended]
          simp
        · intro c hc
          rcases List.mem_append.mp hc with hc | hc
          · exact .inl (List.mem_of_mem_take hc)
          · rcases List.mem_cons.mp hc with hc | hc
            · exact .inr hc
            · exact (hmem c hc).imp List.mem_of_mem_drop id
        · intro n hn
          obtain ⟨n, rfl⟩ := Nat.exists_eq_succ_of_ne_zero (Nat.ne_of_gt (Nat.zero_lt_of_lt hn))
          have hbody : body.length < n := by
            simp only [List.length_append, List.length_cons] at hn
            omega
          rw [joinLines_line hfull hne, hjoin n hbody, Option.map_some, List.take_append_drop]

end

/-! ### What readers look for -/

theorem isPrefixOf_append (part rest : List Char) : part.isPrefixOf (part ++ rest) = true := by
  rw [List.isPrefixOf_iff_prefix]
  exact List.prefix_append _ _

/-- A part is cut off where it begins, if its first character does not come before. -/
theorem cutFrom_append {p : Char} {ps before rest : List Char} (h : p ∉ before)
    (done : List Char) : cutFrom done (p :: ps) (before ++ (p :: ps ++ rest)) =
      some (done.reverse ++ before, rest) := by
  induction before generalizing done with
  | nil =>
      have hprefix : (p :: ps).isPrefixOf (p :: ps ++ rest) = true := isPrefixOf_append _ _
      simp only [List.nil_append, List.cons_append] at hprefix ⊢
      rw [cutFrom, if_pos hprefix]
      simp
  | cons c before ih =>
      obtain ⟨hne, hmem⟩ := not_or.mp (mt List.mem_cons.mpr h)
      have hprefix : ¬ (p :: ps).isPrefixOf (c :: (before ++ (p :: ps ++ rest))) = true := by
        simp [List.isPrefixOf, hne]
      rw [List.cons_append, cutFrom, if_neg hprefix, ih hmem]
      simp

theorem cut_append {p : Char} {ps before rest : List Char} (h : p ∉ before) :
    cut (p :: ps) (before ++ (p :: ps ++ rest)) = some (before, rest) :=
  cutFrom_append h []

theorem cutFrom_of_not_mem {p : Char} {ps s : List Char} (h : p ∉ s) (done : List Char) :
    cutFrom done (p :: ps) s = none := by
  induction s generalizing done with
  | nil => rfl
  | cons c s ih =>
      obtain ⟨hne, hmem⟩ := not_or.mp (mt List.mem_cons.mpr h)
      have hprefix : ¬ (p :: ps).isPrefixOf (c :: s) = true := by simp [List.isPrefixOf, hne]
      rw [cutFrom, if_neg hprefix]
      exact ih hmem _

theorem cutFrom_ended {lines : List (List Char)} (h : ∀ line ∈ lines, line ≠ [] ∧ '\n' ∉ line)
    (done : List Char) : cutFrom done ['\n', '\n'] (ended lines) = none := by
  induction lines generalizing done with
  | nil => rfl
  | cons line lines ih =>
      obtain ⟨⟨-, hline⟩, hlines⟩ := List.forall_mem_cons.mp h
      have hhead : ∀ rest, ended lines ≠ '\n' :: rest := by
        intro rest heq
        cases lines with
        | nil => cases heq
        | cons next more =>
            obtain ⟨hne, hnext⟩ := hlines next List.mem_cons_self
            rw [ended_cons] at heq
            cases next with
            | nil => exact hne rfl
            | cons c next =>
                obtain ⟨rfl, -⟩ := List.cons.inj heq
                exact hnext List.mem_cons_self
      rw [ended_cons]
      clear h
      induction line generalizing done with
      | nil =>
          have hprefix : ¬ ['\n', '\n'].isPrefixOf ('\n' :: ended lines) = true := by
            cases hended : ended lines with
            | nil => simp [List.isPrefixOf]
            | cons c rest =>
                have hc : c ≠ '\n' := by
                  rintro rfl
                  exact hhead rest hended
                simp [List.isPrefixOf, hc.symm]
          rw [List.nil_append, cutFrom, if_neg hprefix]
          exact ih hlines _
      | cons c line ihline =>
          obtain ⟨hne, hmem⟩ := not_or.mp (mt List.mem_cons.mpr hline)
          have hprefix : ¬ ['\n', '\n'].isPrefixOf (c :: (line ++ '\n' :: ended lines)) = true := by
            simp [List.isPrefixOf, hne]
          rw [List.cons_append, cutFrom, if_neg hprefix]
          exact ihline _ hmem

theorem pieces_ended {lines : List (List Char)} (h : ∀ line ∈ lines, '\n' ∉ line) :
    pieces '\n' (ended lines) = lines ++ [[]] := by
  induction lines with
  | nil => rfl
  | cons line lines ih =>
      obtain ⟨hline, hlines⟩ := List.forall_mem_cons.mp h
      rw [ended_cons, pieces_append_cons, pieces_of_not_mem '\n' hline, ih hlines]
      rfl

theorem trimEnd_append {s : List Char} (hne : s ≠ []) (h : ∀ c ∈ s, isBlank c = false)
    (a : List Char) : trimEnd (a ++ s) = a ++ s := by
  unfold trimEnd
  rw [List.reverse_append]
  cases hs : s.reverse with
  | nil => exact absurd (List.reverse_eq_nil_iff.mp hs) hne
  | cons c rest =>
      have hc : isBlank c = false := h c (List.mem_reverse.mp (hs ▸ List.mem_cons_self))
      rw [List.cons_append, List.dropWhile_cons, hc]
      simp only [Bool.false_eq_true, if_false]
      rw [← List.cons_append, ← hs, ← List.reverse_append, List.reverse_reverse]

theorem trimEnd_of_isBlank {s : List Char} (h : ∀ c ∈ s, isBlank c = false) : trimEnd s = s := by
  by_cases hne : s = []
  · rw [hne]
    rfl
  · exact trimEnd_append hne h []

/-! ### Labels -/

/-- Whether a text can be the label of armour. -/
def IsLabel (label : List Char) : Prop := label ≠ [] ∧ ∀ c ∈ label, isLabelChar c = true

theorem isLabel_of_all {label : List Char} (hne : label ≠ [])
    (h : label.all isLabelChar = true) : IsLabel label := ⟨hne, List.all_eq_true.mp h⟩

theorem isLabelChar_dash : isLabelChar '-' = false := by decide

theorem IsLabel.not_mem {label : List Char} (h : IsLabel label) {c : Char}
    (hc : isLabelChar c = false) : c ∉ label := by
  intro hmem
  rw [h.2 c hmem] at hc
  cases hc

/-! ### Lines as octets -/

theorem ofText_append (a b : String) :
    Bytes.ofText (a ++ b) = Bytes.ofText a ++ Bytes.ofText b := by
  simp [Bytes.ofText]

theorem ofText_cons (c : Char) (line : List Char) : Bytes.ofText (String.ofList (c :: line)) =
    String.utf8EncodeChar c ++ Bytes.ofText (String.ofList line) := by
  rw [← List.singleton_append, String.ofList_append, ofText_append]
  simp [Bytes.ofText, List.utf8Encode_singleton]

/-- The octets of a character beyond ASCII are beyond ASCII. -/
theorem toNat_of_mem_utf8EncodeChar {c : Char} {x : UInt8} (h : x ∈ String.utf8EncodeChar c) :
    x.toNat = c.toNat ∨ 128 ≤ x.toNat := by
  have hc : c.val.toNat = c.toNat := rfl
  unfold String.utf8EncodeChar at h
  simp only at h
  repeat' split at h
  all_goals simp only [List.mem_cons, List.not_mem_nil, or_false] at h
  · refine .inl ?_
    rw [h, UInt8.toNat_ofNat']
    omega
  all_goals
    refine .inr ?_
    rcases h with rfl | rfl | rfl | rfl
    all_goals
      rw [UInt8.toNat_ofNat']
      omega

theorem feed_not_mem_ofText {line : List Char} (h : '\n' ∉ line) :
    10 ∉ Bytes.ofText (String.ofList line) := by
  induction line with
  | nil => simp [Bytes.ofText]
  | cons c line ih =>
      obtain ⟨hc, hline⟩ := not_or.mp (mt List.mem_cons.mpr h)
      rw [ofText_cons]
      intro hmem
      rcases List.mem_append.mp hmem with hmem | hmem
      · rcases toNat_of_mem_utf8EncodeChar hmem with hten | hlarge
        · exact hc (Char.toNat_inj.mp hten)
        · exact absurd hlarge (by decide)
      · exact ih hline hmem

theorem pieces_ofText_ended {lines : List (List Char)} (h : ∀ line ∈ lines, '\n' ∉ line)
    (rest : List Char) : pieces 10 (Bytes.ofText (String.ofList (ended lines ++ rest))) =
      lines.map (fun line => Bytes.ofText (String.ofList line)) ++
        pieces 10 (Bytes.ofText (String.ofList rest)) := by
  induction lines with
  | nil => rfl
  | cons line lines ih =>
      obtain ⟨hline, hlines⟩ := List.forall_mem_cons.mp h
      have hfeed : String.utf8EncodeChar '\n' = [10] := by decide
      rw [ended_cons, List.append_assoc, List.cons_append, String.ofList_append, ofText_append,
        ofText_cons, hfeed, List.singleton_append, pieces_append_cons,
        pieces_of_not_mem 10 (feed_not_mem_ofText hline), ih hlines]
      rfl

theorem collect_append {lines : List (List Char)} {last : List Char}
    (h : ∀ line ∈ lines, closing.isPrefixOf line = false ∧ trimEnd line = line)
    (hlast : closing.isPrefixOf last = true) (done : List (List Char)) (more : List Bytes) :
    collect done (lines.map (fun line => Bytes.ofText (String.ofList line)) ++
      (Bytes.ofText (String.ofList last) :: more)) =
        some (done.reverse.flatten ++ lines.flatten) := by
  induction lines generalizing done with
  | nil =>
      rw [List.map_nil, List.nil_append, collect, Bytes.toText?_ofText]
      simp only [String.toList_ofList, hlast, if_true, List.flatten_nil, List.append_nil]
  | cons line lines ih =>
      obtain ⟨⟨hopen, htrim⟩, hlines⟩ := List.forall_mem_cons.mp h
      rw [List.map_cons, List.cons_append, collect, Bytes.toText?_ofText]
      simp only [String.toList_ofList, hopen, Bool.false_eq_true, if_false, htrim]
      rw [ih hlines]
      simp

/-! ### What stands in armour -/

/-- The digits in the armour around some octets. -/
def digitsOf (content : Bytes) : List Char := Base64.standard.encodePadded content

/-- The rows of digits in the armour around some octets. -/
def rowsOf (content : Bytes) : List (List Char) :=
  rows 64 ((digitsOf content).length + 1) (digitsOf content)

theorem flatten_rowsOf (content : Bytes) : (rowsOf content).flatten = digitsOf content :=
  flatten_rows (by decide) (Nat.le_succ _)

theorem row_ne_nil {content : Bytes} {row : List Char} (h : row ∈ rowsOf content) : row ≠ [] :=
  (mem_rows (by decide) h).1

theorem isBodyChar_of_row {content : Bytes} {row : List Char} (h : row ∈ rowsOf content) {c : Char}
    (hc : c ∈ row) : isBodyChar c = true :=
  isBodyChar_of_mem ((mem_rows (by decide) h).2 c hc)

theorem not_mem_row {content : Bytes} {row : List Char} (h : row ∈ rowsOf content) {c : Char}
    (hc : isBodyChar c = false) : c ∉ row := by
  intro hmem
  rw [isBodyChar_of_row h hmem] at hc
  cases hc

theorem trimEnd_row {content : Bytes} {row : List Char} (h : row ∈ rowsOf content) :
    trimEnd row = row := by
  refine trimEnd_of_isBlank ?_
  intro c hc
  have := isBodyChar_of_row h hc
  unfold isBodyChar at this
  simpa using (Bool.and_eq_true_iff.mp this).2

theorem toList_write (label : String) (content : Bytes) : (write label content).toList =
    ended ((opening ++ label.toList ++ dashes) ::
      (rowsOf content ++ [closing ++ label.toList ++ dashes])) := by
  have hwrap : wrap 64 ((digitsOf content).length + 1) (digitsOf content) =
      ended (rowsOf content) := wrap_eq _ _ _
  have hopening : opening = "-----BEGIN ".toList := rfl
  have hclosing : closing = "-----END ".toList := rfl
  have hend : "-----\n".toList = dashes ++ ['\n'] := rfl
  have hlast (line : List Char) : ended [line] = line ++ ['\n'] := by rw [ended_cons]; rfl
  rw [ended_cons, ended_append, hlast, ← hwrap, hopening, hclosing]
  unfold write
  simp only [String.toList_append, String.toList_ofList, hend, List.append_assoc]
  rfl

theorem digitsOf_ne_nil {content : Bytes} (h : content ≠ []) : digitsOf content ≠ [] := by
  intro hnil
  have := Base64.decodePadded?_encodePadded .standard content
  rw [show Base64.standard.encodePadded content = [] from hnil] at this
  exact h (Option.some.inj this).symm

theorem decodePadded?_digitsOf (content : Bytes) :
    Base64.standard.decodePadded? (digitsOf content) = some content :=
  Base64.decodePadded?_encodePadded .standard content

theorem opening_eq : opening = '-' :: "----BEGIN ".toList := rfl

theorem closing_eq : closing = '-' :: "----END ".toList := rfl

theorem dashes_eq : dashes = '-' :: ['-', '-', '-', '-'] := rfl

/-! ### The rows of digits -/

section
variable {content : Bytes}

theorem mem_ended_rowsOf {c : Char} (hc : c ∈ ended (rowsOf content)) :
    isBodyChar c = true ∨ c = '\n' := by
  obtain ⟨row, hrow, hmem⟩ := List.mem_flatMap.mp hc
  rcases List.mem_append.mp hmem with hmem | hmem
  · exact .inl (isBodyChar_of_row hrow hmem)
  · exact .inr (List.mem_singleton.mp hmem)

theorem not_mem_ended_rowsOf {c : Char} (hc : isBodyChar c = false) (hfeed : c ≠ '\n') :
    c ∉ ended (rowsOf content) := by
  intro hmem
  rcases mem_ended_rowsOf hmem with h | h
  · rw [hc] at h
    cases h
  · exact hfeed h

theorem exists_head_rowsOf (hcontent : content ≠ []) :
    ∃ first rest, ended (rowsOf content) = first :: rest ∧ isBodyChar first = true := by
  cases hrows : rowsOf content with
  | nil =>
      have := flatten_rowsOf content
      rw [hrows] at this
      exact absurd this.symm (digitsOf_ne_nil hcontent)
  | cons row more =>
      have hrow : row ∈ rowsOf content := hrows ▸ List.mem_cons_self
      cases hr : row with
      | nil => exact absurd hr (row_ne_nil hrow)
      | cons c row' =>
          refine ⟨c, _, by rw [ended_cons, List.cons_append], ?_⟩
          exact isBodyChar_of_row hrow (hr ▸ List.mem_cons_self)

theorem skipBlanks_rowsOf (hcontent : content ≠ []) (more : List Char) :
    skipBlanks ('\n' :: (ended (rowsOf content) ++ more)) = ended (rowsOf content) ++ more := by
  obtain ⟨first, rest, hfirst, hchar⟩ := exists_head_rowsOf hcontent
  have hblank : ¬ (first = ' ' ∨ first = '\t' ∨ first = '\n' ∨ first = '\r') := by
    rintro (rfl | rfl | rfl | rfl) <;> exact absurd hchar (by decide)
  unfold skipBlanks
  rw [hfirst, List.cons_append, List.dropWhile_cons, List.dropWhile_cons]
  simp [hblank]

theorem behindHeaders?_rowsOf :
    behindHeaders? (ended (rowsOf content)) = some (ended (rowsOf content)) := by
  have hrows : ∀ row ∈ rowsOf content, row ≠ [] ∧ '\n' ∉ row :=
    fun row hrow => ⟨row_ne_nil hrow, not_mem_row hrow (by decide)⟩
  unfold behindHeaders? cut
  rw [cutFrom_ended hrows, cutFrom_of_not_mem (not_mem_ended_rowsOf (by decide) (by decide))]

theorem flatten_pieces_rowsOf :
    ((pieces '\n' (ended (rowsOf content))).map trimEnd).flatten = digitsOf content := by
  rw [pieces_ended (fun row hrow => not_mem_row hrow (by decide)), List.map_append,
    List.flatten_append, List.map_congr_left (fun row hrow => trimEnd_row hrow), List.map_id',
    flatten_rowsOf]
  simp [trimEnd]

/-- A row of digits is taken as it is, and is not the last line. -/
theorem isDigits_row {row : List Char} (h : row ∈ rowsOf content) :
    closing.isPrefixOf row = false ∧ trimEnd row = row := by
  refine ⟨?_, trimEnd_row h⟩
  have hdash := not_mem_row h (show isBodyChar '-' = false by decide)
  cases row with
  | nil => rfl
  | cons c row =>
      obtain ⟨hne, -⟩ := not_or.mp (mt List.mem_cons.mpr hdash)
      simp [closing_eq, List.isPrefixOf, hne]

end

/-! ### What stands around armour -/

/-- Lines among which no armour begins. -/
def IsPreamble (lines : List (List Char)) : Prop :=
  ∀ line ∈ lines, '\n' ∉ line ∧ cut opening line = none

/-- A text with armour in it, behind some lines and before anything else. -/
def within (before : List (List Char)) (armour : String) (after : List Char) : String :=
  String.ofList (ended before ++ armour.toList ++ after)

theorem isPreamble_nil : IsPreamble [] := nofun

theorem within_nil (armour : String) : within [] armour [] = armour := by
  simp [within, ended]

theorem isPrefixOf_line {part line : List Char} (hpart : '\n' ∉ part) (rest : List Char) :
    part.isPrefixOf (line ++ '\n' :: rest) = part.isPrefixOf line := by
  induction part generalizing line with
  | nil => rfl
  | cons p part ih =>
      obtain ⟨hp, hmem⟩ := not_or.mp (mt List.mem_cons.mpr hpart)
      cases line with
      | nil => simp [List.isPrefixOf, Ne.symm hp]
      | cons c line => rw [List.cons_append, List.isPrefixOf, List.isPrefixOf, ih hmem]

theorem cutFrom_line {part line : List Char} (hpart : '\n' ∉ part) (hne : part ≠ [])
    {passed : List Char} (hline : cutFrom passed part line = none) (done rest : List Char) :
    cutFrom done part (line ++ '\n' :: rest) =
      cutFrom ('\n' :: (line.reverse ++ done)) part rest := by
  induction line generalizing passed done with
  | nil =>
      have hprefix : ¬ part.isPrefixOf ('\n' :: rest) = true := by
        rw [← List.nil_append ('\n' :: rest), isPrefixOf_line hpart, List.isPrefixOf_iff_prefix]
        simpa using hne
      rw [List.nil_append, cutFrom, if_neg hprefix]
      rfl
  | cons c line ih =>
      rw [cutFrom] at hline
      split at hline
      · cases hline
      · next hprefix =>
        rw [← isPrefixOf_line hpart rest] at hprefix
        rw [List.cons_append] at hprefix ⊢
        rw [cutFrom, if_neg hprefix, ih hline]
        simp

theorem cutFrom_opening {before : List (List Char)} (h : IsPreamble before)
    (done rest : List Char) : cutFrom done opening (ended before ++ (opening ++ rest)) =
      some (done.reverse ++ ended before, rest) := by
  induction before generalizing done with
  | nil => exact cutFrom_append List.not_mem_nil done
  | cons line before ih =>
      obtain ⟨⟨-, hline⟩, hbefore⟩ := List.forall_mem_cons.mp h
      rw [ended_cons, List.append_assoc, List.cons_append,
        cutFrom_line (by decide) (by decide) hline, ih hbefore]
      simp

theorem cut_opening {before : List (List Char)} (h : IsPreamble before) (rest : List Char) :
    cut opening (ended before ++ (opening ++ rest)) = some (ended before, rest) :=
  cutFrom_opening h [] rest

theorem scanLines_append {before : List (List Char)} (h : IsPreamble before) (more : List Bytes) :
    scanLines (before.map (fun line => Bytes.ofText (String.ofList line)) ++ more) =
      scanLines more := by
  induction before with
  | nil => rfl
  | cons line before ih =>
      obtain ⟨⟨-, hline⟩, hbefore⟩ := List.forall_mem_cons.mp h
      have hprefix : ¬ opening.isPrefixOf line = true := by
        intro hprefix
        cases line with
        | nil => exact absurd hprefix (by decide)
        | cons c line =>
            rw [cut, cutFrom, if_pos hprefix] at hline
            cases hline
      rw [List.map_cons, List.cons_append, scanLines, Bytes.toText?_ofText]
      simp only [String.toList_ofList, hprefix]
      exact ih hbefore

/-! ### The lines around them -/

theorem dropPart?_append (part rest : List Char) : dropPart? part (part ++ rest) = some rest := by
  rw [dropPart?, if_pos (isPrefixOf_append part rest), List.drop_left]

/-- What starts with a first line has nothing before it. -/
theorem dropPreamble?_opening (rest : List Char) :
    dropPreamble? true (opening ++ rest) = some rest := by
  have hprefix := isPrefixOf_append opening rest
  rw [opening_eq, List.cons_append] at hprefix ⊢
  rw [dropPreamble?, opening_eq, hprefix]
  rfl

theorem dropEolBackwards?_feed {last : Char} (hlast : last ≠ '\r') (back : List Char) :
    dropEolBackwards? ('\n' :: (last :: back)) = some (last :: back) := by
  unfold dropEolBackwards?
  split
  · next heq =>
    obtain ⟨rfl, -⟩ := List.cons.inj (List.cons.inj heq).2
    exact absurd rfl hlast
  · next heq => exact absurd (List.cons.inj heq).1 (by decide)
  · next heq => rw [(List.cons.inj heq).2]
  · next hno => exact absurd rfl (hno (last :: back))

theorem label_of_strict? {s : List Char} {width : Nat} {block : Block}
    (h : strict? width s = some block) :
    ∃ rest, dropPreamble? true s = some rest ∧ block.label = rest.takeWhile isLabelChar := by
  unfold strict? at h
  simp only [Option.bind_eq_bind, Option.bind_eq_some_iff] at h
  obtain ⟨rest, hrest, _, -, _, -, _, -, _, -, _, -, _, -, _, -, _, -, h⟩ := h
  cases h
  exact ⟨rest, hrest, rfl⟩

/-- The label that the exact reader finds does not depend on the width of the lines. -/
theorem label_eq_of_strict? {s : List Char} {width width' : Nat} {block block' : Block}
    (h : strict? width s = some block) (h' : strict? width' s = some block') :
    block.label = block'.label := by
  obtain ⟨rest, hrest, hlabel⟩ := label_of_strict? h
  obtain ⟨rest', hrest', hlabel'⟩ := label_of_strict? h'
  rw [hrest, Option.some.injEq] at hrest'
  rw [hlabel, hlabel', hrest']

section
variable {label : String} {content : Bytes} (hlabel : IsLabel label.toList)
include hlabel

theorem dash_not_mem_label : '-' ∉ label.toList := hlabel.not_mem isLabelChar_dash

theorem takeWhile_label (rest : List Char) :
    (label.toList ++ (dashes ++ rest)).takeWhile isLabelChar = label.toList := by
  rw [List.takeWhile_append_of_pos hlabel.2, dashes_eq, List.cons_append, List.takeWhile_cons,
    isLabelChar_dash]
  simp

theorem cut_label (rest : List Char) :
    cut dashes (label.toList ++ (dashes ++ rest)) = some (label.toList, rest) :=
  cut_append (dash_not_mem_label hlabel)

theorem labelOfLine?_opening :
    labelOfLine? (opening ++ label.toList ++ dashes) = some label.toList := by
  have hcut := cut_label hlabel []
  rw [List.append_nil] at hcut
  unfold labelOfLine?
  rw [List.append_assoc, List.drop_left, hcut]

theorem feed_not_mem_border {part : List Char} (hpart : '\n' ∉ part) :
    '\n' ∉ part ++ label.toList ++ dashes := by
  have hmiddle : '\n' ∉ label.toList := hlabel.not_mem (by decide)
  have hdashes : '\n' ∉ dashes := by decide
  simp [hpart, hmiddle, hdashes]

theorem feed_not_mem_line {line : List Char} (h : line ∈ (opening ++ label.toList ++ dashes) ::
      (rowsOf content ++ [closing ++ label.toList ++ dashes])) : '\n' ∉ line := by
  rcases List.mem_cons.mp h with rfl | h
  · exact feed_not_mem_border hlabel (by decide)
  · rcases List.mem_append.mp h with h | h
    · exact not_mem_row h (by decide)
    · obtain rfl := List.mem_singleton.mp h
      exact feed_not_mem_border hlabel (by decide)

/-! ### The three readers -/

/-- The exact reader takes armour apart. -/
theorem strict?_write (hcontent : content ≠ []) :
    strict? 64 (write label content).toList = some ⟨label.toList, content⟩ := by
  obtain ⟨body, hended, hne, hmem, hjoin⟩ :=
    joinLines_rows (show 0 < 64 by decide) (digitsOf_ne_nil hcontent) (Nat.le_succ _)
  have hreturn : '\r' ∉ body := by
    intro hr
    rcases hmem _ hr with hr | hr
    · have := isBodyChar_of_mem hr
      exact absurd this (by decide)
    · exact absurd hr (by decide)
  obtain ⟨last, back, hback⟩ : ∃ last back, body.reverse = last :: back := by
    cases hrev : body.reverse with
    | nil => exact absurd (List.reverse_eq_nil_iff.mp hrev) hne
    | cons last back => exact ⟨last, back, rfl⟩
  have hlast : last ≠ '\r' := by
    rintro rfl
    exact hreturn (List.mem_reverse.mp (hback ▸ List.mem_cons_self))
  have htext : (write label content).toList = opening ++ (label.toList ++ (dashes ++ '\n' ::
      (body ++ '\n' :: (closing ++ (label.toList ++ (dashes ++ ['\n'])))))) := by
    rw [toList_write, ended_cons, ended_append,
      show ended (rowsOf content) = body ++ ['\n'] from hended,
      ended_cons]
    simp [ended]
  -- From here on the reader works backwards from the end.
  have hreverse : (body ++ '\n' :: (closing ++ (label.toList ++ (dashes ++ ['\n'])))).reverse =
      '\n' :: (dashes ++ (label.toList.reverse ++
        (closing.reverse ++ '\n' :: (last :: back)))) := by
    rw [← hback]
    simp [dashes]
  have hdash : ∀ rest, dropEolBackwards? ('\n' :: (dashes ++ rest)) = some (dashes ++ rest) :=
    fun _ => rfl
  have hjoined : joinLines 64 ((last :: back).length + 1) (last :: back).reverse =
      some (digitsOf content) := by
    rw [← hback, List.reverse_reverse]
    exact hjoin _ (by rw [List.length_reverse]; omega)
  rw [htext]
  unfold strict?
  rw [dropPreamble?_opening]
  simp only [Option.bind_eq_bind, Option.bind_some, takeWhile_label hlabel, List.drop_left,
    dropPart?_append, dropEol?, hreverse, hdash, Option.getD_some, dropEolBackwards?_feed hlast,
    hjoined, decodePadded?_digitsOf]
  rfl

/-- The reader that finds armour anywhere takes it apart. -/
theorem find?_within (hcontent : content ≠ []) {before : List (List Char)}
    (hbefore : IsPreamble before) (after : List Char) :
    find? (within before (write label content) after).toList = some ⟨label.toList, content⟩ := by
  have htext : (within before (write label content) after).toList =
      ended before ++ (opening ++ (label.toList ++ (dashes ++ ('\n' :: (ended (rowsOf content) ++
        (closing ++ (label.toList ++ (dashes ++ ('\n' :: after)))))))) ) := by
    rw [within, String.toList_ofList, toList_write, ended_cons, ended_append, ended_cons]
    simp [ended]
  have hclosing : ∀ rest, cut closing (ended (rowsOf content) ++ (closing ++ rest)) =
      some (ended (rowsOf content), rest) :=
    fun rest => cut_append (not_mem_ended_rowsOf (by decide) (by decide))
  rw [htext]
  unfold find? guard
  rw [cut_opening hbefore]
  simp only [Option.bind_eq_bind, Option.bind_some, cut_label hlabel, skipBlanks_rowsOf hcontent,
    hclosing, behindHeaders?_rowsOf, flatten_pieces_rowsOf, decodePadded?_digitsOf]
  rw [if_pos ⟨hlabel.1, trivial⟩]
  rfl

theorem find?_write (hcontent : content ≠ []) :
    find? (write label content).toList = some ⟨label.toList, content⟩ := by
  have h := find?_within hlabel hcontent isPreamble_nil []
  rwa [within_nil] at h

/-- The reader that goes line by line takes the lines of armour apart. -/
theorem scanLines_lines (content : Bytes) (more : List Bytes) : scanLines
    (((opening ++ label.toList ++ dashes) ::
      (rowsOf content ++ [closing ++ label.toList ++ dashes])).map
        (fun line => Bytes.ofText (String.ofList line)) ++ more) =
      some ⟨label.toList, content⟩ := by
  have hlast : closing.isPrefixOf (closing ++ label.toList ++ dashes) = true := by
    rw [List.append_assoc]
    exact isPrefixOf_append _ _
  have hfirst : opening.isPrefixOf (opening ++ label.toList ++ dashes) = true := by
    rw [List.append_assoc]
    exact isPrefixOf_append _ _
  have hcollect := collect_append (fun (row : List Char) (hrow : row ∈ rowsOf content) =>
    isDigits_row hrow) hlast [] more
  rw [List.reverse_nil, List.flatten_nil, List.nil_append, flatten_rowsOf] at hcollect
  have htail : (rowsOf content ++ [closing ++ label.toList ++ dashes]).map
        (fun line => Bytes.ofText (String.ofList line)) ++ more =
      (rowsOf content).map (fun line => Bytes.ofText (String.ofList line)) ++
        (Bytes.ofText (String.ofList (closing ++ label.toList ++ dashes)) :: more) := by
    rw [List.map_append, List.append_assoc]
    rfl
  rw [List.map_cons, List.cons_append, htail, scanLines, Bytes.toText?_ofText]
  simp only [String.toList_ofList, hfirst, if_true, labelOfLine?_opening hlabel, hcollect,
    Option.bind_eq_bind, Option.bind_some, decodePadded?_digitsOf]
  rfl

theorem scan?_within (content : Bytes) {before : List (List Char)} (hbefore : IsPreamble before)
    (after : List Char) : scan? (Bytes.ofText (within before (write label content) after)) =
      some ⟨label.toList, content⟩ := by
  have hlines : within before (write label content) after = String.ofList (ended before ++
      (ended ((opening ++ label.toList ++ dashes) ::
        (rowsOf content ++ [closing ++ label.toList ++ dashes])) ++ after)) := by
    rw [within, toList_write, List.append_assoc]
  unfold scan?
  rw [hlines, pieces_ofText_ended (fun line hline => (hbefore line hline).1),
    scanLines_append hbefore, pieces_ofText_ended (fun line => feed_not_mem_line hlabel)]
  exact scanLines_lines hlabel content _

theorem scan?_write (content : Bytes) :
    scan? (Bytes.ofText (write label content)) = some ⟨label.toList, content⟩ := by
  have h := scan?_within hlabel content isPreamble_nil []
  rwa [within_nil] at h

end

end Pem
end CredentialServer
