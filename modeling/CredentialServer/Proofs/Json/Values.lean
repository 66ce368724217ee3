import CredentialServer.Proofs.Json.Numbers

/-! # Values that nobody looks at

A value that is not wanted is still checked for its form: a string, a number, a word, a list or a
table, to any depth (`Unread`).  The skipping loop keeps the open brackets on a stack.  What they
still ask of the octets is written down (`Closes`), so that by induction on the steps of the loop
what was skipped is a value (`unread_of_skip?`), and by induction on the value it is skipped as a
whole (`skip?_of_unread`), unless a number could go on behind its end (`Ends`). -/

namespace CredentialServer
namespace Json

variable {b c rest more : Bytes} {x : UInt8}

/-! ### Values -/

/-- The parts of values. -/
inductive Part where
  | value
  /-- The items of a list up to its closing bracket. -/
  | items
  /-- The fields of a table up to its closing bracket. -/
  | fields

/-- Octets that start with a part of a value. -/
inductive Unread : Part → Bytes → Bytes → Prop
  | string {b rest : Bytes} : IsForm b rest → Unread .value (0x22 :: b) rest
  | number {b rest : Bytes} : Number b rest → Unread .value b rest
  | negative {b rest : Bytes} : Number b rest → Unread .value (0x2d :: b) rest
  | word {w : String} (rest : Bytes) : w = "null" ∨ w = "true" ∨ w = "false" →
      Unread .value (Bytes.ofText w ++ rest) rest
  | emptyList {b rest : Bytes} : Blanks b (0x5d :: rest) → Unread .value (0x5b :: b) rest
  | list {b rest : Bytes} : Unread .items b rest → Unread .value (0x5b :: b) rest
  | emptyTable {b rest : Bytes} : Blanks b (0x7d :: rest) → Unread .value (0x7b :: b) rest
  | table {b rest : Bytes} : Unread .fields b rest → Unread .value (0x7b :: b) rest
  | lastItem {b v e rest : Bytes} : Blanks b v → Unread .value v e → Blanks e (0x5d :: rest) →
      Unread .items b rest
  | moreItems {b v e m rest : Bytes} : Blanks b v → Unread .value v e → Blanks e (0x2c :: m) →
      Unread .items m rest → Unread .items b rest
  | lastField {b n c d v e rest : Bytes} : Blanks b (0x22 :: n) → IsForm n c →
      Blanks c (0x3a :: d) → Blanks d v → Unread .value v e → Blanks e (0x7d :: rest) →
        Unread .fields b rest
  | moreFields {b n c d v e m rest : Bytes} : Blanks b (0x22 :: n) → IsForm n c →
      Blanks c (0x3a :: d) → Blanks d v → Unread .value v e → Blanks e (0x2c :: m) →
        Unread .fields m rest → Unread .fields b rest

/-! ### What is skipped is a value -/

theorem skipName?_eq_some_iff : skipName? b = some rest ↔
    ∃ n c, Blanks b (0x22 :: n) ∧ IsForm n c ∧ Blanks c (0x3a :: rest) := by
  have hquote : isBlankOctet 0x22 = false := by decide
  have hcolon : isBlankOctet 0x3a = false := by decide
  unfold skipName?
  simp only [Option.bind_eq_some_iff, readMark?_eq_some_iff hquote, readMark?_eq_some_iff hcolon,
    skipString?_eq_some_iff]
  constructor
  · rintro ⟨c, ⟨n, hn, hc⟩, hrest⟩
    exact ⟨n, c, hn, hc, hrest⟩
  · rintro ⟨n, c, hn, hc, hrest⟩
    exact ⟨c, ⟨n, hn, hc⟩, hrest⟩

theorem skipWord?_eq_some_iff {w : String} :
    skipWord? w b = some rest ↔ b = Bytes.ofText w ++ rest := by
  unfold skipWord?
  dsimp only
  constructor
  · intro h
    split at h
    · next hstarts =>
      cases h
      obtain ⟨more, rfl⟩ := List.isPrefixOf_iff_prefix.mp hstarts
      rw [List.drop_left]
    · cases h
  · rintro rfl
    have hstarts : (Bytes.ofText w).isPrefixOf (Bytes.ofText w ++ rest) = true :=
      List.isPrefixOf_iff_prefix.mpr (List.prefix_append _ _)
    rw [if_pos hstarts, List.drop_left]

theorem unread_of_skipAtom? (h : skipAtom? b = some rest) : Unread .value b rest := by
  cases b with
  | nil => cases h
  | cons x b =>
      rw [skipAtom?] at h
      split at h
      · next hx =>
        subst hx
        exact .string (skipString?_eq_some_iff.mp h)
      split at h
      · next hx =>
        subst hx
        exact .negative (number_of_skipNumber? h)
      split at h
      · exact .number (number_of_skipNumber? h)
      split at h
      · rw [skipWord?_eq_some_iff.mp h]
        exact .word rest (.inl rfl)
      split at h
      · rw [skipWord?_eq_some_iff.mp h]
        exact .word rest (.inr (.inl rfl))
      split at h
      · rw [skipWord?_eq_some_iff.mp h]
        exact .word rest (.inr (.inr rfl))
      · cases h

/-- What an open bracket, of a table or of a list, asks of the octets behind a value in it. -/
def Tail (table : Bool) (b rest : Bytes) : Prop :=
  Blanks b ((if table then 0x7d else 0x5d) :: rest) ∨
    ∃ m, Blanks b (0x2c :: m) ∧ Unread (if table then .fields else .items) m rest

/-- What the open brackets ask of the octets behind a value in the innermost one. -/
def Closes : List Bool → Bytes → Bytes → Prop
  | [], b, rest => b = rest
  | table :: outer, b, rest => ∃ c, Tail table b c ∧ Closes outer c rest

theorem Tail.items {v e : Bytes} (h : Tail false e rest) (hb : Blanks b v)
    (hv : Unread .value v e) : Unread .items b rest := by
  rcases h with hlast | ⟨m, hcomma, hm⟩
  · exact .lastItem hb hv hlast
  · exact .moreItems hb hv hcomma hm

theorem Tail.fields {n d v e : Bytes} (h : Tail true e rest) (hb : Blanks b (0x22 :: n))
    (hn : IsForm n c) (hc : Blanks c (0x3a :: d)) (hd : Blanks d v) (hv : Unread .value v e) :
    Unread .fields b rest := by
  rcases h with hlast | ⟨m, hcomma, hm⟩
  · exact .lastField hb hn hc hd hv hlast
  · exact .moreFields hb hn hc hd hv hcomma hm

/-- What the loop takes: a value, if it stands before one, and what the open brackets ask for. -/
def Takes : Bool → List Bool → Bytes → Bytes → Prop
  | true, stack, b, rest => ∃ v e, Blanks b v ∧ Unread .value v e ∧ Closes stack e rest
  | false, stack, b, rest => Closes stack b rest

theorem takes_of_skipFrom {fuel : Nat} {before : Bool} {stack : List Bool}
    (h : skipFrom fuel before stack b = some rest) : Takes before stack b rest := by
  fun_induction skipFrom fuel before stack b with
  | case2 before stack b hdone =>
      cases h
      simp only [Bool.or_eq_true, Bool.not_eq_true', List.isEmpty_eq_false_iff, not_or] at hdone
      obtain ⟨hbefore, hstack⟩ := hdone
      obtain rfl : before = false := by simpa using hbefore
      obtain rfl : stack = [] := by simpa using hstack
      rfl
  | case4 fuel stack b more c hclose hopen ih =>
      have hlist := blanks_of_readMark? hclose
      exact ⟨_, c, blanks_of_dropBlanks_eq hopen, .emptyList hlist, ih h⟩
  | case5 fuel stack b more hitem hopen ih =>
      obtain ⟨v, e, hblanks, hv, c, htail, hcloses⟩ := ih h
      exact ⟨_, c, blanks_of_dropBlanks_eq hopen, .list (htail.items hblanks hv), hcloses⟩
  | case6 fuel stack b more c hclose hopen _ ih =>
      have htable := blanks_of_readMark? hclose
      exact ⟨_, c, blanks_of_dropBlanks_eq hopen, .emptyTable htable, ih h⟩
  | case7 fuel stack b more hfield d hname hopen _ ih =>
      obtain ⟨n, c, hb, hn, hc⟩ := skipName?_eq_some_iff.mp hname
      obtain ⟨v, e, hd, hv, f, htail, hcloses⟩ := ih h
      exact ⟨_, f, blanks_of_dropBlanks_eq hopen, .table (htail.fields hb hn hc hd hv), hcloses⟩
  | case9 fuel stack b x more hopen _ _ c hatom ih =>
      exact ⟨_, c, blanks_of_dropBlanks_eq hopen, unread_of_skipAtom? hatom, ih h⟩
  | case11 fuel b =>
      cases h
      rfl
  | case13 fuel stack b more d hname hcomma ih =>
      obtain ⟨n, c, hb, hn, hc⟩ := skipName?_eq_some_iff.mp hname
      obtain ⟨v, e, hd, hv, f, htail, hcloses⟩ := ih h
      exact ⟨f, .inr ⟨more, blanks_of_dropBlanks_eq hcomma, htail.fields hb hn hc hd hv⟩, hcloses⟩
  | case15 fuel table stack b more htable hcomma ih =>
      obtain rfl : table = false := by simpa using htable
      obtain ⟨v, e, hblanks, hv, c, htail, hcloses⟩ := ih h
      exact ⟨c, .inr ⟨more, blanks_of_dropBlanks_eq hcomma, htail.items hblanks hv⟩, hcloses⟩
  | case16 fuel table stack b more hclose _ ih =>
      exact ⟨more, .inl (blanks_of_dropBlanks_eq hclose), ih h⟩
  | _ => cases h

theorem unread_of_skip? (h : skip? b = some rest) : ∃ v, Blanks b v ∧ Unread .value v rest := by
  obtain ⟨v, e, hblanks, hv, rfl⟩ := takes_of_skipFrom h
  exact ⟨v, hblanks, hv⟩

/-! ### A value is skipped -/

/-- No number goes on with a blank, a comma or a closing bracket. -/
theorem Blanks.ends (h : Blanks b (x :: rest)) (hx : x = 0x2c ∨ x = 0x5d ∨ x = 0x7d) : Ends b := by
  intro y more hb
  cases h with
  | none =>
      cases hb
      rcases hx with rfl | rfl | rfl <;> decide
  | more hblank =>
      cases hb
      rcases isBlankOctet_iff.mp hblank with rfl | rfl | rfl | rfl <;> decide

theorem isBlankOctet_of_isDigit (h : isDigit x = true) : isBlankOctet x = false := by
  refine Bool.eq_false_iff.mpr fun hblank => ?_
  rcases isBlankOctet_iff.mp hblank with rfl | rfl | rfl | rfl <;> cases h

theorem Unread.exists_cons (h : Unread .value b rest) :
    ∃ x more, b = x :: more ∧ isBlankOctet x = false ∧ x ≠ 0x5d := by
  have hdigit : ∀ y, isDigit y = true → isBlankOctet y = false ∧ y ≠ 0x5d := by
    intro y hy
    refine ⟨isBlankOctet_of_isDigit hy, ?_⟩
    rintro rfl
    cases hy
  cases h with
  | number hnumber =>
      obtain ⟨x, more, rfl, hx⟩ := hnumber.exists_cons
      exact ⟨x, more, rfl, hdigit x hx⟩
  | word rest hw => rcases hw with rfl | rfl | rfl <;> exact ⟨_, _, rfl, by decide⟩
  | _ => exact ⟨_, _, rfl, by decide⟩

theorem Unread.not_closed {v : Bytes} (h : Unread .value v rest) (hb : Blanks b v) :
    readMark? 0x5d b = none := by
  obtain ⟨x, more, rfl, hblank, hclose⟩ := h.exists_cons
  exact readMark?_eq_none hb hblank hclose

theorem length_le_of_name {n d v : Bytes} (hb : Blanks b (0x22 :: n)) (hn : IsForm n c)
    (hc : Blanks c (0x3a :: d)) (hd : Blanks d v) : v.length ≤ b.length := by
  have hb := hb.length_lt
  have hn := hn.length_lt
  have hc := hc.length_lt
  have hd := hd.length_le
  omega

section steps
variable {fuel : Nat} {stack : List Bool} {table : Bool} {d m v : Bytes}

theorem skipFrom_close (h : Blanks b ((if table then 0x7d else 0x5d) :: rest)) :
    skipFrom (fuel + 1) false (table :: stack) b = skipFrom fuel false stack rest := by
  cases table with
  | false => rw [skipFrom, (blanks_cons_iff (by decide)).mp h]; rfl
  | true => rw [skipFrom, (blanks_cons_iff (by decide)).mp h]; rfl

theorem skipFrom_comma (h : Blanks b (0x2c :: m)) :
    skipFrom (fuel + 1) false (false :: stack) b = skipFrom fuel true (false :: stack) m := by
  rw [skipFrom, (blanks_cons_iff (by decide)).mp h]
  rfl

theorem skipFrom_commaName (h : Blanks b (0x2c :: m)) (hname : skipName? m = some d) :
    skipFrom (fuel + 1) false (true :: stack) b = skipFrom fuel true (true :: stack) d := by
  rw [skipFrom, (blanks_cons_iff (by decide)).mp h]
  simp [hname]

theorem skipFrom_emptyList (h : Blanks c (0x5b :: b)) (hclose : Blanks b (0x5d :: rest)) :
    skipFrom (fuel + 1) true stack c = skipFrom fuel false stack rest := by
  rw [skipFrom, (blanks_cons_iff (by decide)).mp h]
  simp [(readMark?_eq_some_iff (by decide)).mpr hclose]

theorem skipFrom_list (h : Blanks c (0x5b :: b)) (hclose : readMark? 0x5d b = none) :
    skipFrom (fuel + 1) true stack c = skipFrom fuel true (false :: stack) b := by
  rw [skipFrom, (blanks_cons_iff (by decide)).mp h]
  simp [hclose]

theorem skipFrom_emptyTable (h : Blanks c (0x7b :: b)) (hclose : Blanks b (0x7d :: rest)) :
    skipFrom (fuel + 1) true stack c = skipFrom fuel false stack rest := by
  rw [skipFrom, (blanks_cons_iff (by decide)).mp h]
  simp [(readMark?_eq_some_iff (by decide)).mpr hclose]

theorem skipFrom_table (h : Blanks c (0x7b :: b)) (hclose : readMark? 0x7d b = none)
    (hname : skipName? b = some d) :
    skipFrom (fuel + 1) true stack c = skipFrom fuel true (true :: stack) d := by
  rw [skipFrom, (blanks_cons_iff (by decide)).mp h]
  simp [hclose, hname]

theorem skipFrom_atom (h : Blanks c (x :: b)) (hblank : isBlankOctet x = false) (hlist : x ≠ 0x5b)
    (htable : x ≠ 0x7b) (hatom : skipAtom? (x :: b) = some rest) :
    skipFrom (fuel + 1) true stack c = skipFrom fuel false stack rest := by
  rw [skipFrom, (blanks_cons_iff hblank).mp h]
  simp [hlist, htable, hatom]

end steps

/-- How many steps the loop takes to skip a part of a value: a value behind blanks, the items of a
list whose bracket is open, or the fields of a table behind the name of the first one. -/
def SkipsIn (n : Nat) : Part → Bytes → Bytes → Prop
  | .value, b, rest => Ends rest → ∀ fuel stack c, Blanks c b →
      skipFrom (fuel + n) true stack c = skipFrom fuel false stack rest
  | .items, b, rest => readMark? 0x5d b = none ∧ ∀ fuel stack,
      skipFrom (fuel + n) true (false :: stack) b = skipFrom fuel false stack rest
  | .fields, b, rest => readMark? 0x7d b = none ∧ ∃ d, skipName? b = some d ∧ ∀ fuel stack,
      skipFrom (fuel + n) true (true :: stack) d = skipFrom fuel false stack rest

theorem skipsIn_one {b : Bytes} (h : Unread .value (x :: b) rest) (hlist : x ≠ 0x5b)
    (htable : x ≠ 0x7b) (hatom : Ends rest → skipAtom? (x :: b) = some rest) :
    SkipsIn 1 .value (x :: b) rest := by
  intro hrest fuel stack c hc
  obtain ⟨_, _, heq, hblank, -⟩ := h.exists_cons
  cases heq
  exact skipFrom_atom hc hblank hlist htable (hatom hrest)

/-- Each step takes an octet at least. -/
theorem exists_skipsIn {part : Part} (h : Unread part b rest) :
    ∃ n, n + rest.length ≤ b.length ∧ SkipsIn n part b rest := by
  have hstep : ∀ {b rest : Bytes}, rest.length < b.length → 1 + rest.length ≤ b.length := by
    intro b rest h
    omega
  induction h with
  | @string b rest hform =>
      refine ⟨1, hstep (Nat.lt_succ_of_lt hform.length_lt), ?_⟩
      refine skipsIn_one (.string hform) (by decide) (by decide) fun _ => ?_
      rw [skipAtom?, if_pos rfl]
      exact skipString?_eq_some_iff.mpr hform
  | @number b rest hnumber =>
      obtain ⟨x, more, rfl, hx⟩ := hnumber.exists_cons
      have hne : ∀ y, isDigit y = false → x ≠ y := by
        rintro y hy rfl
        rw [hx] at hy
        cases hy
      refine ⟨1, hstep hnumber.length_lt, ?_⟩
      refine skipsIn_one (.number hnumber) (hne _ (by decide)) (hne _ (by decide)) fun hrest => ?_
      rw [skipAtom?, if_neg (hne _ (by decide)), if_neg (hne _ (by decide)), if_pos hx]
      exact skipNumber?_of_number hnumber hrest
  | @negative b rest hnumber =>
      refine ⟨1, hstep (Nat.lt_succ_of_lt hnumber.length_lt), ?_⟩
      refine skipsIn_one (.negative hnumber) (by decide) (by decide) fun hrest => ?_
      rw [skipAtom?, if_neg (by decide), if_pos rfl]
      exact skipNumber?_of_number hnumber hrest
  | @word w rest hw =>
      have hvalue : Unread .value (Bytes.ofText w ++ rest) rest := .word rest hw
      have hskip := (skipWord?_eq_some_iff (w := w)).mpr (rfl : Bytes.ofText w ++ rest = _)
      have hlength : rest.length < (Bytes.ofText w ++ rest).length := by
        have hword : 0 < (Bytes.ofText w).length := by rcases hw with rfl | rfl | rfl <;> decide
        rw [List.length_append]
        omega
      refine ⟨1, hstep hlength, ?_⟩
      rcases hw with rfl | rfl | rfl
      · exact skipsIn_one hvalue (by decide) (by decide) fun _ => hskip
      · exact skipsIn_one hvalue (by decide) (by decide) fun _ => hskip
      · exact skipsIn_one hvalue (by decide) (by decide) fun _ => hskip
  | @emptyList b rest hclose =>
      refine ⟨1, hstep ?_, fun _ fuel stack c hc => skipFrom_emptyList hc hclose⟩
      exact Nat.lt_succ_of_lt hclose.length_le
  | @list b rest _ ih =>
      obtain ⟨n, hn, hopen, hskip⟩ := ih
      refine ⟨n + 1, ?_, fun _ fuel stack c hc => ?_⟩
      · rw [List.length_cons]
        omega
      · rw [← Nat.add_assoc, skipFrom_list hc hopen, hskip]
  | @emptyTable b rest hclose =>
      refine ⟨1, hstep ?_, fun _ fuel stack c hc => skipFrom_emptyTable hc hclose⟩
      exact Nat.lt_succ_of_lt hclose.length_le
  | @table b rest _ ih =>
      obtain ⟨n, hn, hopen, d, hname, hskip⟩ := ih
      refine ⟨n + 1, ?_, fun _ fuel stack c hc => ?_⟩
      · rw [List.length_cons]
        omega
      · rw [← Nat.add_assoc, skipFrom_table hc hopen hname, hskip]
  | @lastItem b v e rest hb hv hclose ih =>
      obtain ⟨n, hn, hskip⟩ := ih
      have hlength := hb.length_le
      have hlength' := hclose.length_lt
      refine ⟨1 + n, ?_, hv.not_closed hb, fun fuel stack => ?_⟩
      · omega
      · rw [← Nat.add_assoc, hskip (hclose.ends (by simp)) _ _ b hb]
        exact skipFrom_close hclose
  | @moreItems b v e m rest hb hv hcomma _ ih₁ ih₂ =>
      obtain ⟨n₁, hn₁, hskip₁⟩ := ih₁
      obtain ⟨n₂, hn₂, -, hskip₂⟩ := ih₂
      have hlength := hb.length_le
      have hlength' := hcomma.length_lt
      refine ⟨n₂ + 1 + n₁, ?_, hv.not_closed hb, fun fuel stack => ?_⟩
      · omega
      · rw [← Nat.add_assoc, hskip₁ (hcomma.ends (by simp)) _ _ b hb, ← Nat.add_assoc,
          skipFrom_comma hcomma, hskip₂]
  | @lastField b n c d v e rest hb hn hc hd hv hclose ih =>
      obtain ⟨k, hk, hskip⟩ := ih
      have hname := skipName?_eq_some_iff.mpr ⟨n, c, hb, hn, hc⟩
      have hopen : readMark? 0x7d b = none := readMark?_eq_none hb (by decide) (by decide)
      have hlength := length_le_of_name hb hn hc hd
      have hlength' := hclose.length_lt
      refine ⟨1 + k, ?_, hopen, d, hname, fun fuel stack => ?_⟩
      · omega
      · rw [← Nat.add_assoc, hskip (hclose.ends (by simp)) _ _ d hd]
        exact skipFrom_close hclose
  | @moreFields b n c d v e m rest hb hn hc hd hv hcomma _ ih₁ ih₂ =>
      obtain ⟨k₁, hk₁, hskip₁⟩ := ih₁
      obtain ⟨k₂, hk₂, -, d', hname', hskip₂⟩ := ih₂
      have hname := skipName?_eq_some_iff.mpr ⟨n, c, hb, hn, hc⟩
      have hopen : readMark? 0x7d b = none := readMark?_eq_none hb (by decide) (by decide)
      have hlength := length_le_of_name hb hn hc hd
      have hlength' := hcomma.length_lt
      refine ⟨k₂ + 1 + k₁, ?_, hopen, d, hname, fun fuel stack => ?_⟩
      · omega
      · rw [← Nat.add_assoc, hskip₁ (hcomma.ends (by simp)) _ _ d hd, ← Nat.add_assoc,
          skipFrom_commaName hcomma hname', hskip₂]

theorem Unread.length_le {part : Part} (h : Unread part b rest) : rest.length ≤ b.length := by
  obtain ⟨n, hn, -⟩ := exists_skipsIn h
  exact Nat.le_of_add_left_le hn

/-- A value is skipped as a whole, if it is a number only as long as none goes on behind it. -/
theorem skip?_of_unread {v : Bytes} (hb : Blanks b v) (h : Unread .value v rest)
    (hrest : Ends rest) : skip? b = some rest := by
  obtain ⟨n, hn, hskip⟩ := exists_skipsIn h
  have hlength := hb.length_le
  have hfuel : b.length + 1 = (b.length - n + 1) + n := by omega
  unfold skip?
  rw [hfuel, hskip hrest _ _ b hb]
  rfl

/-! ### Octets that are not looked at -/

theorem Unread.append {part : Part} (h : Unread part b rest) (q : Bytes) :
    Unread part (b ++ q) (rest ++ q) := by
  induction h with
  | string hform => exact .string (hform.append q)
  | number hnumber => exact .number (hnumber.append q)
  | negative hnumber => exact .negative (hnumber.append q)
  | word rest hw =>
      rw [List.append_assoc]
      exact .word _ hw
  | emptyList hclose => exact .emptyList (hclose.append q)
  | list _ ih => exact .list ih
  | emptyTable hclose => exact .emptyTable (hclose.append q)
  | table _ ih => exact .table ih
  | lastItem hb _ hclose ih => exact .lastItem (hb.append q) ih (hclose.append q)
  | moreItems hb _ hcomma _ ih₁ ih₂ => exact .moreItems (hb.append q) ih₁ (hcomma.append q) ih₂
  | lastField hb hn hc hd _ hclose ih =>
      exact .lastField (hb.append q) (hn.append q) (hc.append q) (hd.append q) ih (hclose.append q)
  | moreFields hb hn hc hd _ hcomma _ ih₁ ih₂ =>
      exact .moreFields (hb.append q) (hn.append q) (hc.append q) (hd.append q) ih₁
        (hcomma.append q) ih₂

end Json
end CredentialServer
