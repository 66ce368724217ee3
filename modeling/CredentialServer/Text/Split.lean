/-!
# Cutting text into pieces

A text is cut at every occurrence of a separator: `pieces` has one piece more than there are
separators. Blank space is what Unicode calls white space. Main statements: `pieces_append_cons`
(a separator cuts a text into two independent ones), `length_pieces`, `not_mem_of_mem_pieces`
(no piece holds the separator) and `intercalate_pieces` (the pieces make up the text).
-/

namespace CredentialServer

/-- The pieces between separators, in order; a text without one is its own only piece. -/
def pieces [DecidableEq α] (sep : α) (s : List α) : List (List α) :=
  s.foldr (fun c ps => if c = sep then [] :: ps
    else match ps with
      | [] => [[c]]
      | p :: ps => (c :: p) :: ps) [[]]

section Pieces

variable [DecidableEq α] (sep : α)

@[simp] theorem pieces_nil : pieces sep [] = [[]] := rfl

theorem pieces_ne_nil (s : List α) : pieces sep s ≠ [] := by
  cases s with
  | nil => simp
  | cons c s =>
    simp only [pieces, List.foldr_cons]
    split
    · simp
    · split <;> simp

@[simp] theorem pieces_cons_self (s : List α) : pieces sep (sep :: s) = [] :: pieces sep s := by
  simp [pieces]

theorem pieces_cons_of_ne {c : α} (h : c ≠ sep) (s : List α) :
    ∃ p ps, pieces sep s = p :: ps ∧ pieces sep (c :: s) = (c :: p) :: ps := by
  match hs : pieces sep s with
  | [] => exact absurd hs (pieces_ne_nil sep s)
  | p :: ps =>
    refine ⟨p, ps, rfl, ?_⟩
    have : pieces sep (c :: s) = if c = sep then [] :: pieces sep s
        else match pieces sep s with
          | [] => [[c]]
          | p :: ps => (c :: p) :: ps := rfl
    rw [this, if_neg h, hs]

theorem pieces_of_not_mem {s : List α} (h : sep ∉ s) : pieces sep s = [s] := by
  induction s with
  | nil => rfl
  | cons c s ih =>
    simp only [List.mem_cons, not_or] at h
    obtain ⟨p, ps, hp, hc⟩ := pieces_cons_of_ne sep (fun e => h.1 e.symm) s
    rw [ih h.2] at hp
    cases hp
    exact hc

/-- A separator cuts a text into two that are cut independently. -/
theorem pieces_append_cons (a b : List α) :
    pieces sep (a ++ sep :: b) = pieces sep a ++ pieces sep b := by
  induction a with
  | nil => simp
  | cons c a ih =>
    by_cases h : c = sep
    · subst h; simp [ih]
    · obtain ⟨p, ps, hp, hc⟩ := pieces_cons_of_ne sep h (a ++ sep :: b)
      obtain ⟨q, qs, hq, hd⟩ := pieces_cons_of_ne sep h a
      rw [List.cons_append, hc, hd]
      rw [ih, hq] at hp
      cases hp
      rfl

theorem length_pieces (s : List α) : (pieces sep s).length = s.count sep + 1 := by
  induction s with
  | nil => simp
  | cons c s ih =>
    by_cases h : c = sep
    · subst h; simp [ih]
    · obtain ⟨p, ps, hp, hc⟩ := pieces_cons_of_ne sep h s
      rw [hc, List.count_cons_of_ne h, ← ih, hp]
      simp

theorem not_mem_of_mem_pieces {s p : List α} (h : p ∈ pieces sep s) : sep ∉ p := by
  induction s generalizing p with
  | nil => simp only [pieces_nil, List.mem_singleton] at h; simp [h]
  | cons c s ih =>
    by_cases hc : c = sep
    · subst hc
      simp only [pieces_cons_self, List.mem_cons] at h
      rcases h with rfl | h
      · simp
      · exact ih h
    · obtain ⟨q, qs, hq, hd⟩ := pieces_cons_of_ne sep hc s
      rw [hd, List.mem_cons] at h
      rw [hq] at ih
      rcases h with rfl | h
      · simp only [List.mem_cons, not_or]
        exact ⟨fun e => hc e.symm, ih List.mem_cons_self⟩
      · exact ih (List.mem_cons_of_mem _ h)

/-- The pieces with the separator between them make up the text. -/
theorem intercalate_pieces (s : List α) : [sep].intercalate (pieces sep s) = s := by
  induction s with
  | nil => rfl
  | cons c s ih =>
    by_cases h : c = sep
    · subst h
      rw [pieces_cons_self]
      cases hp : pieces c s with
      | nil => exact absurd hp (pieces_ne_nil c s)
      | cons p ps =>
        rw [hp] at ih
        simpa [List.intercalate] using ih
    · obtain ⟨p, ps, hp, hc⟩ := pieces_cons_of_ne sep h s
      rw [hp] at ih
      rw [hc]
      cases ps with
      | nil => simpa [List.intercalate] using ih
      | cons q ps => simpa [List.intercalate] using ih

end Pieces

/-- Whether a character is white space, in any script. -/
def isBlank (c : Char) : Bool :=
  let n := c.toNat
  decide (9 ≤ n ∧ n ≤ 13) || n == 32 || n == 133 || n == 160 || n == 5760 ||
    decide (8192 ≤ n ∧ n ≤ 8202) || n == 8232 || n == 8233 || n == 8239 || n == 8287 || n == 12288

/-- A text without the blanks at its end. -/
def trimEnd (s : List Char) : List Char := (s.reverse.dropWhile isBlank).reverse

/-- A text without the blanks at either end. -/
def trim (s : List Char) : List Char := trimEnd (s.dropWhile isBlank)

end CredentialServer
