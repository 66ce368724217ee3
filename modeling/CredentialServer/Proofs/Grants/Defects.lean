import Mathlib.Data.List.Forall2
import CredentialServer.Proofs.Grants.Acceptance
import CredentialServer.Proofs.Grants.Expansion

/-! # What is wrong with a text that is no template

A text has at most one form as a template (`Template.eq_of_text_eq`), so that there is only one
value to expand it to.  A text that does not expand is cut at its opening brackets, and then the
leftmost defect is the error: a closing bracket in front of all others, or else that of the first
part that does not close its bracket once, behind a variable with a value
(`substitute_eq_error_iff`).  Main statement: `Variables.expandsTemplates`. -/

namespace CredentialServer

/-- A variable has this value, which is not empty. -/
def Variables.Gives (vars : Variables) (var : List Char) (value : String) : Prop :=
  vars.find? (String.ofList var) = some value ∧ value ≠ ""

theorem Variables.value?_eq_some_iff {vars : Variables} {var found : List Char} :
    vars.value? var = some found ↔ ∃ value, vars.Gives var value ∧ found = value.toList := by
  unfold value? Gives
  cases vars.find? (String.ofList var) with
  | none => simp
  | some value =>
      have hempty : value.isEmpty = true ↔ value = "" := String.isEmpty_iff
      by_cases hvalue : value = ""
      · simp [hvalue]
      · simp [mt hempty.mp hvalue, hvalue, eq_comm]

theorem Variables.value?_eq_none_iff {vars : Variables} {var : List Char} :
    vars.value? var = none ↔ ∀ value, ¬ vars.Gives var value := by
  rw [Option.eq_none_iff_forall_ne_some]
  constructor
  · intro h value hvalue
    exact h value.toList (value?_eq_some_iff.mpr ⟨value, hvalue, rfl⟩)
  · intro h found hfound
    obtain ⟨value, hvalue, -⟩ := value?_eq_some_iff.mp hfound
    exact h value hvalue

/-! ### One form -/

namespace Template

/-- Every variable of a template has a value that is not empty. -/
def IsDefined (vars : Variables) (t : Template) : Prop :=
  ∀ p ∈ t.tail, ∃ value, vars.Gives p.1 value

/-- The text of a template with the value of a variable in the place of each, as it is. -/
def filled (vars : Variables) (t : Template) : List Char :=
  t.head ++ t.tail.flatMap fun p => ((vars.find? (String.ofList p.1)).getD "").toList ++ p.2

theorem fillTail?_eq_some_iff {vars : Variables} {l : List (List Char × List Char)}
    {value : List Char} : fillTail? vars l = some value ↔
      (∀ p ∈ l, ∃ v, vars.Gives p.1 v) ∧
        value = l.flatMap fun p => ((vars.find? (String.ofList p.1)).getD "").toList ++ p.2 := by
  induction l generalizing value with
  | nil => simp [fillTail?, eq_comm]
  | cons p l ih =>
      obtain ⟨var, text⟩ := p
      simp only [fillTail?, List.forall_mem_cons, List.flatMap_cons]
      cases hvar : vars.value? var with
      | none =>
          have hundefined := Variables.value?_eq_none_iff.mp hvar
          simp [hundefined]
      | some found =>
          obtain ⟨v, hv, rfl⟩ := Variables.value?_eq_some_iff.mp hvar
          have hgiven : ∃ v, vars.Gives var v := ⟨v, hv⟩
          simp only [hgiven, true_and, hv.1, Option.getD_some]
          cases hrest : fillTail? vars l with
          | none =>
              have hundefined : ¬ ∀ p ∈ l, ∃ v, vars.Gives p.1 v := by
                intro hall
                rw [ih.mpr ⟨hall, rfl⟩] at hrest
                cases hrest
              simp only [hundefined, false_and, reduceCtorEq]
          | some rest =>
              obtain ⟨hall, rfl⟩ := ih.mp hrest
              simp only [Option.some.injEq, eq_comm (b := value), and_iff_right hall]

theorem fill?_eq_some_iff {vars : Variables} {t : Template} {value : List Char} :
    t.fill? vars = some value ↔ t.IsDefined vars ∧ value = t.filled vars := by
  unfold fill? IsDefined filled
  rw [Option.map_eq_some_iff]
  constructor
  · rintro ⟨rest, hrest, rfl⟩
    obtain ⟨hall, rfl⟩ := fillTail?_eq_some_iff.mp hrest
    exact ⟨hall, rfl⟩
  · rintro ⟨hall, rfl⟩
    exact ⟨_, fillTail?_eq_some_iff.mpr ⟨hall, rfl⟩, rfl⟩

/-- The parts of a text behind its opening brackets give the row of variables back. -/
theorem map_pieces_parts {l : List (List Char × List Char)}
    (h : ∀ p ∈ l, IsPlain p.1 ∧ IsPlain p.2) :
    (l.map fun p => p.1 ++ ')' :: p.2).map (pieces ')') = l.map fun p => [p.1, p.2] := by
  rw [List.map_map]
  refine List.map_congr_left fun p hp => ?_
  obtain ⟨hvar, htext⟩ := h p hp
  simp only [Function.comp_apply, pieces_append_cons, pieces_of_not_mem ')' hvar.2,
    pieces_of_not_mem ')' htext.2, List.cons_append, List.nil_append]

/-- **A text has at most one form as a template.** -/
theorem eq_of_text_eq {t t' : Template} (ht : t.IsWellFormed) (ht' : t'.IsWellFormed)
    (h : t.text = t'.text) : t = t' := by
  obtain ⟨head, tail⟩ := t
  obtain ⟨head', tail'⟩ := t'
  have hpieces : head :: tail.map (fun p => p.1 ++ ')' :: p.2) =
      head' :: tail'.map (fun p => p.1 ++ ')' :: p.2) := by
    rw [← pieces_textTail ht.2 ht.1.1, ← pieces_textTail ht'.2 ht'.1.1]
    exact congrArg (pieces '(') h
  obtain ⟨rfl, hparts⟩ := List.cons.inj hpieces
  have hrow : tail.map (fun p => [p.1, p.2]) = tail'.map (fun p => [p.1, p.2]) := by
    rw [← map_pieces_parts ht.2, ← map_pieces_parts ht'.2, hparts]
  have hinj : Function.Injective fun p : List Char × List Char => [p.1, p.2] := by
    intro p q hpq
    simp only [List.cons.injEq, and_true] at hpq
    exact Prod.ext hpq.1 hpq.2
  rw [List.map_injective_iff.mpr hinj hrow]

end Template

/-! ### Parts -/

section
variable {vars : Variables} {within : String} {part : List Char} {e : TemplateError}

/-- A part closes its bracket once, behind a variable that has a value. -/
def IsGoodPart (vars : Variables) (part : List Char) : Prop :=
  ∃ var text value, part = var ++ ')' :: text ∧ ')' ∉ var ∧ ')' ∉ text ∧ vars.Gives var value

/-- What is wrong with a part. -/
inductive PartDefect (vars : Variables) (within : String) : List Char → TemplateError → Prop where
  | missingClose {part : List Char} (h : ')' ∉ part) :
      PartDefect vars within part (.missingClose within)
  | extraneousClose {part : List Char} (h : 2 ≤ part.count ')') :
      PartDefect vars within part (.extraneousClose within)
  | undefinedVariable {var text : List Char} (hvar : ')' ∉ var) (htext : ')' ∉ text)
      (h : ∀ value, ¬ vars.Gives var value) :
      PartDefect vars within (var ++ ')' :: text) (.undefinedVariable (String.ofList var) within)

theorem expandPart_of_one_close {var text : List Char} (hvar : ')' ∉ var) (htext : ')' ∉ text) :
    expandPart vars within (var ++ ')' :: text) = match vars.value? var with
      | some value => .ok (value ++ text)
      | none => .error (.undefinedVariable (String.ofList var) within) := by
  have hpieces : pieces ')' (var ++ ')' :: text) = [var, text] := by
    rw [pieces_append_cons, pieces_of_not_mem ')' hvar, pieces_of_not_mem ')' htext]
    rfl
  unfold expandPart
  cases hvalue : vars.value? var with
  | none => simp [hpieces, hvalue]
  | some value => simp [hpieces, hvalue]

theorem IsGoodPart.exists_expandPart (h : IsGoodPart vars part) (within : String) :
    ∃ value, expandPart vars within part = .ok value := by
  obtain ⟨var, text, value, rfl, hvar, htext, hvalue⟩ := h
  rw [expandPart_of_one_close hvar htext, Variables.value?_eq_some_iff.mpr ⟨value, hvalue, rfl⟩]
  exact ⟨_, rfl⟩

theorem pieces_of_two_le_count {sep : Char} {s : List Char} (h : 2 ≤ s.count sep) :
    ∃ a b c rest, pieces sep s = a :: b :: c :: rest := by
  have hlength : 3 ≤ (pieces sep s).length := by
    rw [length_pieces]
    omega
  match hpieces : pieces sep s with
  | a :: b :: c :: rest => exact ⟨a, b, c, rest, rfl⟩
  | [] | [_] | [_, _] =>
      rw [hpieces] at hlength
      simp at hlength

theorem PartDefect.expandPart_eq (h : PartDefect vars within part e) :
    expandPart vars within part = .error e := by
  cases h with
  | missingClose h => simp only [expandPart, pieces_of_not_mem ')' h]
  | extraneousClose h =>
      obtain ⟨a, b, c, rest, hpieces⟩ := pieces_of_two_le_count h
      simp only [expandPart, hpieces]
  | undefinedVariable hvar htext h =>
      rw [expandPart_of_one_close hvar htext, Variables.value?_eq_none_iff.mpr h]

theorem isGoodPart_or_exists_defect (vars : Variables) (within : String) (part : List Char) :
    IsGoodPart vars part ∨ ∃ e, PartDefect vars within part e := by
  by_cases hclose : ')' ∈ part
  · obtain ⟨var, text, rfl⟩ := List.append_of_mem hclose
    by_cases hone : ')' ∉ var ∧ ')' ∉ text
    · by_cases hvalue : ∃ value, vars.Gives var value
      · obtain ⟨value, hvalue⟩ := hvalue
        exact .inl ⟨var, text, value, rfl, hone.1, hone.2, hvalue⟩
      · exact .inr ⟨_, .undefinedVariable hone.1 hone.2 (not_exists.mp hvalue)⟩
    · have hmany : 2 ≤ (var ++ ')' :: text).count ')' := by
        have hside : 0 < var.count ')' ∨ 0 < text.count ')' := by
          rw [List.count_pos_iff, List.count_pos_iff]
          tauto
        rw [List.count_append, List.count_cons_self]
        omega
      exact .inr ⟨_, .extraneousClose hmany⟩
  · exact .inr ⟨_, .missingClose hclose⟩

theorem exists_expandPart_iff :
    (∃ value, expandPart vars within part = .ok value) ↔ IsGoodPart vars part := by
  refine ⟨?_, fun h => h.exists_expandPart within⟩
  rintro ⟨value, hvalue⟩
  rcases isGoodPart_or_exists_defect vars within part with hgood | ⟨e, hdefect⟩
  · exact hgood
  · rw [hdefect.expandPart_eq] at hvalue
    cases hvalue

theorem expandPart_eq_error_iff :
    expandPart vars within part = .error e ↔ PartDefect vars within part e := by
  refine ⟨?_, PartDefect.expandPart_eq⟩
  intro h
  rcases isGoodPart_or_exists_defect vars within part with hgood | ⟨e', hdefect⟩
  · obtain ⟨value, hvalue⟩ := hgood.exists_expandPart within
    rw [hvalue] at h
    cases h
  · have hsame := hdefect.expandPart_eq
    rw [h] at hsame
    cases hsame
    exact hdefect

theorem expandParts_eq_error_iff {parts : List (List Char)} :
    expandParts vars within parts = .error e ↔ ∃ good bad rest, parts = good ++ bad :: rest ∧
      (∀ p ∈ good, IsGoodPart vars p) ∧ PartDefect vars within bad e := by
  induction parts with
  | nil => simp [expandParts]
  | cons part parts ih =>
      unfold expandParts
      constructor
      · intro h
        cases hpart : expandPart vars within part with
        | error e' =>
            rw [hpart] at h
            cases h
            exact ⟨[], part, parts, rfl, List.forall_mem_nil _, expandPart_eq_error_iff.mp hpart⟩
        | ok value =>
            rw [hpart] at h
            cases hparts : expandParts vars within parts with
            | ok values =>
                rw [hparts] at h
                cases h
            | error e' =>
                rw [hparts] at h
                cases h
                obtain ⟨good, bad, rest, rfl, hgood, hbad⟩ := ih.mp hparts
                have hfirst : IsGoodPart vars part := exists_expandPart_iff.mp ⟨value, hpart⟩
                exact ⟨part :: good, bad, rest, rfl, List.forall_mem_cons.mpr ⟨hfirst, hgood⟩, hbad⟩
      · rintro ⟨_ | ⟨first, good⟩, bad, rest, hparts, hgood, hbad⟩
        · cases hparts
          rw [hbad.expandPart_eq]
        · cases hparts
          obtain ⟨hfirst, hgood⟩ := List.forall_mem_cons.mp hgood
          obtain ⟨value, hvalue⟩ := hfirst.exists_expandPart within
          rw [hvalue, ih.mpr ⟨good, bad, rest, rfl, hgood, hbad⟩]

end

/-! ### Texts -/

/-- A text is cut at its opening brackets: what stands in front of the first one, and the parts
behind each of them. -/
structure IsCut (text head : List Char) (parts : List (List Char)) : Prop where
  eq : text = head ++ parts.flatMap ('(' :: ·)
  head : '(' ∉ head
  parts : ∀ part ∈ parts, '(' ∉ part

theorem isCut_iff {text head : List Char} {parts : List (List Char)} :
    IsCut text head parts ↔ pieces '(' text = head :: parts := by
  constructor
  · rintro ⟨rfl, hhead, hparts⟩
    induction parts generalizing head with
    | nil => simp [pieces_of_not_mem '(' hhead]
    | cons part parts ih =>
        obtain ⟨hpart, hparts⟩ := List.forall_mem_cons.mp hparts
        rw [List.flatMap_cons, List.cons_append, pieces_append_cons, pieces_of_not_mem '(' hhead,
          ih hpart hparts]
        rfl
  · intro h
    have hopen : ∀ part ∈ head :: parts, '(' ∉ part :=
      fun part hpart => not_mem_of_mem_pieces '(' (h ▸ hpart)
    obtain ⟨hhead, hparts⟩ := List.forall_mem_cons.mp hopen
    refine ⟨?_, hhead, hparts⟩
    rw [← intercalate_pieces '(' text, h]
    clear h hopen hhead hparts
    induction parts generalizing head with
    | nil => simp [List.intercalate]
    | cons part parts ih =>
        have hrest := @ih part
        simp only [List.intercalate, List.intersperse_cons_cons, List.flatten_cons] at hrest ⊢
        rw [hrest]
        simp

theorem exists_isCut (text : List Char) : ∃ head parts, IsCut text head parts := by
  cases h : pieces '(' text with
  | nil => exact absurd h (pieces_ne_nil '(' text)
  | cons head parts => exact ⟨head, parts, isCut_iff.mpr h⟩

/-- The leftmost defect of a text. -/
inductive FirstDefect (vars : Variables) (within : String) : TemplateError → Prop where
  /-- A bracket is closed in front of all that are opened. -/
  | front {head : List Char} {parts : List (List Char)} (hcut : IsCut within.toList head parts)
      (h : ')' ∈ head) : FirstDefect vars within (.extraneousClose within)
  /-- The first bad part. -/
  | part {head bad : List Char} {good rest : List (List Char)} {e : TemplateError}
      (hcut : IsCut within.toList head (good ++ bad :: rest)) (hhead : ')' ∉ head)
      (hgood : ∀ p ∈ good, IsGoodPart vars p) (hbad : PartDefect vars within bad e) :
      FirstDefect vars within e

theorem substitute_of_isCut {vars : Variables} {within : String} {head : List Char}
    {parts : List (List Char)} (h : IsCut within.toList head parts) :
    substitute vars within = if ')' ∈ head then .error (.extraneousClose within)
      else (expandParts vars within parts).map fun text => String.ofList (head ++ text) := by
  unfold substitute
  rw [isCut_iff.mp h]
  simp only
  cases expandParts vars within parts <;> rfl

/-- **The error of a text is its leftmost defect.** -/
theorem substitute_eq_error_iff {vars : Variables} {within : String} {e : TemplateError} :
    substitute vars within = .error e ↔ FirstDefect vars within e := by
  constructor
  · intro h
    obtain ⟨head, parts, hcut⟩ := exists_isCut within.toList
    rw [substitute_of_isCut hcut] at h
    by_cases hhead : ')' ∈ head
    · rw [if_pos hhead] at h
      cases h
      exact .front hcut hhead
    · rw [if_neg hhead] at h
      cases hparts : expandParts vars within parts with
      | ok value =>
          rw [hparts] at h
          cases h
      | error e' =>
          rw [hparts] at h
          cases h
          obtain ⟨good, bad, rest, rfl, hgood, hbad⟩ := expandParts_eq_error_iff.mp hparts
          exact .part hcut hhead hgood hbad
  · rintro (⟨hcut, hhead⟩ | ⟨hcut, hhead, hgood, hbad⟩)
    · rw [substitute_of_isCut hcut, if_pos hhead]
    · rw [substitute_of_isCut hcut, if_neg hhead,
        expandParts_eq_error_iff.mpr ⟨_, _, _, rfl, hgood, hbad⟩]
      rfl

/-! ### Lists of texts -/

section
variable {vars : Variables} {l : List String}

theorem substituteAll_eq_ok_iff {r : List String} : substituteAll vars l = .ok r ↔
    List.Forall₂ (fun within out => substitute vars within = .ok out) l r := by
  induction l generalizing r with
  | nil => simp [substituteAll, eq_comm]
  | cons within l ih =>
      unfold substituteAll
      cases hfirst : substitute vars within with
      | error e => simp [List.forall₂_cons_left_iff, hfirst]
      | ok out =>
          cases hrest : substituteAll vars l with
          | error e =>
              have hfails : ∀ r, ¬ List.Forall₂ (fun w o => substitute vars w = .ok o) l r := by
                intro r hr
                rw [ih.mpr hr] at hrest
                cases hrest
              simp [List.forall₂_cons_left_iff, hfails]
          | ok outs =>
              have hrow : ∀ r, List.Forall₂ (fun w o => substitute vars w = .ok o) l r ↔
                  outs = r := by
                intro r
                rw [← ih, hrest, Except.ok.injEq]
              simp [List.forall₂_cons_left_iff, hfirst, hrow, eq_comm]

theorem substituteAll_eq_error_iff {e : TemplateError} : substituteAll vars l = .error e ↔
    ∃ before within rest outs, l = before ++ within :: rest ∧
      substituteAll vars before = .ok outs ∧ substitute vars within = .error e := by
  induction l with
  | nil => simp [substituteAll]
  | cons within l ih =>
      constructor
      · intro h
        unfold substituteAll at h
        cases hfirst : substitute vars within with
        | error e' =>
            rw [hfirst] at h
            cases h
            exact ⟨[], within, l, [], rfl, rfl, hfirst⟩
        | ok out =>
            rw [hfirst] at h
            cases hrest : substituteAll vars l with
            | ok outs =>
                rw [hrest] at h
                cases h
            | error e' =>
                rw [hrest] at h
                cases h
                obtain ⟨before, bad, rest, outs, rfl, hbefore, hbad⟩ := ih.mp hrest
                refine ⟨within :: before, bad, rest, out :: outs, rfl, ?_, hbad⟩
                simp only [substituteAll, hfirst, hbefore]
      · rintro ⟨_ | ⟨first, before⟩, bad, rest, outs, hl, hbefore, hbad⟩
        · cases hl
          simp only [substituteAll, hbad]
        · cases hl
          unfold substituteAll at hbefore ⊢
          cases hfirst : substitute vars within with
          | error e' =>
              rw [hfirst] at hbefore
              cases hbefore
          | ok out =>
              rw [hfirst] at hbefore
              cases hrest : substituteAll vars before with
              | error e' =>
                  rw [hrest] at hbefore
                  cases hbefore
              | ok outs' => simp only [ih.mpr ⟨before, bad, rest, outs', rfl, hrest, hbad⟩]

end

/-- How texts are expanded with some variables. -/
structure Variables.ExpandsTemplates (vars : Variables) : Prop where
  /-- A text expands just if it is the text of a template whose variables all have values, and then
  to that template with the values in their places. -/
  ok_iff : ∀ within out, substitute vars within = .ok out ↔ ∃ t : Template, t.IsWellFormed ∧
    t.text = within.toList ∧ t.IsDefined vars ∧ out.toList = t.filled vars
  /-- There is no other such template. -/
  unique : ∀ t t' : Template, t.IsWellFormed → t'.IsWellFormed → t.text = t'.text → t = t'
  /-- Any other text has a leftmost defect, which is the error. -/
  error_iff : ∀ within e, substitute vars within = .error e ↔ FirstDefect vars within e
  /-- A list expands just if each of its texts does, to one text for each, in order. -/
  all_ok_iff : ∀ l r, substituteAll vars l = .ok r ↔
    List.Forall₂ (fun within out => substitute vars within = .ok out) l r
  /-- The error of a list is that of the first text that does not expand. -/
  all_error_iff : ∀ l e, substituteAll vars l = .error e ↔ ∃ before within rest,
    l = before ++ within :: rest ∧ (∀ w ∈ before, ∃ out, substitute vars w = .ok out) ∧
      substitute vars within = .error e

/-- **Texts expand by the grammar of templates, and in one pass**: a value is not looked at for
brackets. -/
theorem Variables.expandsTemplates (vars : Variables) : vars.ExpandsTemplates := by
  constructor
  case ok_iff =>
    intro within out
    simp only [substitute_eq_ok_iff, Template.fill?_eq_some_iff]
  case unique => exact fun t t' ht ht' h => Template.eq_of_text_eq ht ht' h
  case error_iff => exact fun within e => substitute_eq_error_iff
  case all_ok_iff => exact fun l r => substituteAll_eq_ok_iff
  case all_error_iff =>
    intro l e
    have hbefore : ∀ before, (∃ outs, substituteAll vars before = .ok outs) ↔
        ∀ w ∈ before, ∃ out, substitute vars w = .ok out := by
      intro before
      exact exists_substituteAll_iff
    rw [substituteAll_eq_error_iff]
    constructor
    · rintro ⟨before, within, rest, outs, hl, houts, hbad⟩
      exact ⟨before, within, rest, hl, (hbefore before).mp ⟨outs, houts⟩, hbad⟩
    · rintro ⟨before, within, rest, hl, hgood, hbad⟩
      obtain ⟨outs, houts⟩ := (hbefore before).mpr hgood
      exact ⟨before, within, rest, outs, hl, houts, hbad⟩

end CredentialServer
