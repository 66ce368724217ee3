import CredentialServer.Grants.Template

/-! # Which texts are templates

A text is expanded by cutting it at its brackets, and a `Template` is a text and a row of variables
that were never put together.  Here the two are compared: a text expands just if it is the text of a
template whose variables all have values, and then to the value of that template
(`substitute_eq_ok_iff`).  Whether there is such a template at all (`IsPaired`) depends on the text
alone, and the brackets of a text that is one come in equal numbers (`count_text`). -/

namespace CredentialServer

namespace Template

/-- The brackets of a text pair up and do not nest. -/
def IsPaired (within : String) : Prop :=
  ∃ t : Template, t.IsWellFormed ∧ t.text = within.toList

/-! ### Brackets of a template -/

theorem IsPlain.count_eq_zero {s : List Char} (h : IsPlain s) :
    s.count '(' = 0 ∧ s.count ')' = 0 :=
  ⟨List.count_eq_zero.mpr h.1, List.count_eq_zero.mpr h.2⟩

theorem count_textTail {l : List (List Char × List Char)}
    (h : ∀ p ∈ l, IsPlain p.1 ∧ IsPlain p.2) :
    (textTail l).count '(' = l.length ∧ (textTail l).count ')' = l.length := by
  induction l with
  | nil => exact ⟨rfl, rfl⟩
  | cons p l ih =>
      obtain ⟨var, text⟩ := p
      obtain ⟨⟨hvar, htext⟩, hl⟩ := List.forall_mem_cons.mp h
      obtain ⟨hopen, hclose⟩ := ih hl
      have hv := hvar.count_eq_zero
      have ht := htext.count_eq_zero
      simp [textTail, List.count_append, hopen, hclose, hv, ht]

theorem count_text {t : Template} (h : t.IsWellFormed) :
    t.text.count '(' = t.tail.length ∧ t.text.count ')' = t.tail.length := by
  obtain ⟨hopen, hclose⟩ := count_textTail h.2
  have hhead := h.1.count_eq_zero
  unfold text
  rw [List.count_append, List.count_append, hopen, hclose, hhead.1, hhead.2]
  omega

theorem IsPaired.count_eq {within : String} (h : IsPaired within) :
    within.toList.count '(' = within.toList.count ')' := by
  obtain ⟨t, ht, htext⟩ := h
  obtain ⟨hopen, hclose⟩ := count_text ht
  rw [← htext, hopen, hclose]

theorem isPaired_empty : IsPaired "" := by
  refine ⟨⟨[], []⟩, ⟨⟨List.not_mem_nil, List.not_mem_nil⟩, ?_⟩, rfl⟩
  intro p hp
  cases hp

end Template

/-! ### Cutting a text into a template -/

section
variable {vars : Variables} {within : String}

theorem eq_of_pieces_eq (sep : Char) {s t : List Char} (h : pieces sep s = pieces sep t) :
    s = t := by
  rw [← intercalate_pieces sep s, h, intercalate_pieces]

theorem exists_of_expandPart {part value : List Char} (hopen : '(' ∉ part)
    (h : expandPart vars within part = .ok value) : ∃ var text found,
      part = var ++ ')' :: text ∧ (Template.IsPlain var ∧ Template.IsPlain text) ∧
        vars.value? var = some found ∧ value = found ++ text := by
  unfold expandPart at h
  split at h
  · next var text hpieces =>
    have hpart : part = var ++ ')' :: text := by
      rw [← intercalate_pieces ')' part, hpieces]
      simp [List.intercalate]
    have hvar : ')' ∉ var := not_mem_of_mem_pieces ')' (hpieces ▸ List.mem_cons_self)
    have htext : ')' ∉ text :=
      not_mem_of_mem_pieces ')' (hpieces ▸ List.mem_cons_of_mem _ List.mem_cons_self)
    simp only [hpart, List.mem_append, List.mem_cons, not_or] at hopen
    split at h
    · next found hfound =>
      cases h
      exact ⟨var, text, found, hpart, ⟨⟨hopen.1, hvar⟩, hopen.2.2, htext⟩, hfound, rfl⟩
    · cases h
  · cases h
  · cases h

theorem exists_of_expandParts {parts : List (List Char)} {value : List Char}
    (hopen : ∀ part ∈ parts, '(' ∉ part) (h : expandParts vars within parts = .ok value) :
    ∃ l : List (List Char × List Char), parts = l.map (fun p => p.1 ++ ')' :: p.2) ∧
      (∀ p ∈ l, Template.IsPlain p.1 ∧ Template.IsPlain p.2) ∧
      Template.fillTail? vars l = some value := by
  induction parts generalizing value with
  | nil =>
      cases h
      exact ⟨[], rfl, fun _ hp => absurd hp List.not_mem_nil, rfl⟩
  | cons part parts ih =>
      obtain ⟨hfirst, hrest⟩ := List.forall_mem_cons.mp hopen
      unfold expandParts at h
      cases hpart : expandPart vars within part with
      | error e =>
          rw [hpart] at h
          cases h
      | ok first =>
          rw [hpart] at h
          cases hparts : expandParts vars within parts with
          | error e =>
              rw [hparts] at h
              cases h
          | ok rest =>
              rw [hparts] at h
              cases h
              obtain ⟨var, text, found, rfl, hplain, hfound, rfl⟩ :=
                exists_of_expandPart hfirst hpart
              obtain ⟨l, rfl, hl, hfill⟩ := ih hrest hparts
              refine ⟨(var, text) :: l, rfl, List.forall_mem_cons.mpr ⟨hplain, hl⟩, ?_⟩
              unfold Template.fillTail?
              rw [hfound, hfill]

/-- A text that expands is that of a template, and expands to its value. -/
theorem exists_of_substitute {value : String} (h : substitute vars within = .ok value) :
    ∃ t : Template, t.IsWellFormed ∧ t.text = within.toList ∧
      t.fill? vars = some value.toList := by
  unfold substitute at h
  cases hpieces : pieces '(' within.toList with
  | nil => exact absurd hpieces (pieces_ne_nil '(' _)
  | cons head parts =>
      have hopen : ∀ part ∈ head :: parts, '(' ∉ part :=
        fun part hpart => not_mem_of_mem_pieces '(' (hpieces ▸ hpart)
      obtain ⟨hhead, hparts⟩ := List.forall_mem_cons.mp hopen
      rw [hpieces] at h
      simp only at h
      split at h
      · cases h
      · next hclose =>
        cases hexpand : expandParts vars within parts with
        | error e =>
            rw [hexpand] at h
            cases h
        | ok rest =>
            rw [hexpand] at h
            cases h
            obtain ⟨l, rfl, hl, hfill⟩ := exists_of_expandParts hparts hexpand
            refine ⟨⟨head, l⟩, ⟨⟨hhead, hclose⟩, hl⟩, ?_, ?_⟩
            · apply eq_of_pieces_eq '('
              rw [hpieces]
              exact pieces_textTail hl hhead
            · unfold Template.fill?
              rw [hfill, String.toList_ofList]
              rfl

/-- **Just the texts of templates expand**, each to the value of its template. -/
theorem substitute_eq_ok_iff {value : String} : substitute vars within = .ok value ↔
    ∃ t : Template, t.IsWellFormed ∧ t.text = within.toList ∧
      t.fill? vars = some value.toList := by
  constructor
  · exact exists_of_substitute
  · rintro ⟨t, ht, htext, hfill⟩
    have h := substitute_eq_ok_of_fill? ht hfill
    rwa [htext, String.ofList_toList, String.ofList_toList] at h

theorem isPaired_of_substitute {value : String} (h : substitute vars within = .ok value) :
    Template.IsPaired within := by
  obtain ⟨t, ht, htext, -⟩ := exists_of_substitute h
  exact ⟨t, ht, htext⟩

end
end CredentialServer
