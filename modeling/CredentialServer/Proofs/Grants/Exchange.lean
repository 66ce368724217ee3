import CredentialServer.Grants.Engine
import CredentialServer.Proofs.Batch.Reading

/-! # A batch may come as text

The text of a batch is read as a whole before anything in it is run, and the answers are written as
a text.  So a text that writes a batch (`Batch.Writes`) does just what the batch does, and one that
writes none does nothing, however much of it looks like a batch.  Main statement: `exchanges`. -/

namespace CredentialServer
namespace Engine

open Batch

variable {e : Engine} {moments : Nat → Moment} {s : Session} {l : List Operation} {b : Bytes}

theorem runText_of_writes (h : Writes b l) : e.runText moments s b =
    ((e.run moments s l).1.map encodeStrings, (e.run moments s l).2) := by
  unfold runText
  rw [read?_eq_some_iff.mpr h]
  dsimp only
  cases e.run moments s l with
  | mk result t => cases result <;> rfl

theorem runText_of_not_writes (h : ¬ ∃ l, Writes b l) :
    e.runText moments s b = (.error .malformedBatch, s) := by
  have hnone : read? b = none := by
    rw [Option.eq_none_iff_forall_ne_some]
    exact fun l hl => h ⟨l, read?_eq_some_iff.mp hl⟩
  unfold runText
  rw [hnone]

/-- An operation is not to blame for the text that it stood in. -/
theorem invoke_ne_malformedBatch {now : Moment} {o : Operation} :
    e.invoke now s o ≠ .error .malformedBatch := by
  unfold invoke privilegeOf
  cases e.grants.find? o.api with
  | none => nofun
  | some grant =>
      dsimp only
      cases grant.holders.find? s.acting.principal with
      | none => nofun
      | some p =>
          dsimp only
          cases p.invoke e.directory now s o.body <;> nofun

theorem runFrom_ne_malformedBatch (n : Nat) :
    (e.runFrom moments n s l).1 ≠ .error .malformedBatch := by
  induction l generalizing n s with
  | nil =>
      intro h
      cases h
  | cons o l ih =>
      rw [runFrom]
      split
      · next err herr =>
        intro h
        cases h
        exact invoke_ne_malformedBatch herr
      · next answer t _ =>
        have hrest := ih (s := t) (n + 1)
        split
        · next err u hrun =>
          rw [hrun] at hrest
          exact hrest
        · intro h
          cases h

/-- How text is run, beside how batches are. -/
structure Exchanges (e : Engine) (moments : Nat → Moment) (s : Session) : Prop where
  /-- Every batch can be written, whatever its strings are. -/
  written : ∀ l, Writes (encode l) l
  /-- A text writes one batch at most. -/
  unique : ∀ b l l', Writes b l → Writes b l' → l = l'
  /-- A text that writes a batch leaves the session that the batch leaves. -/
  leaves : ∀ b l, Writes b l → (e.runText moments s b).2 = (e.run moments s l).2
  /-- It fails as the batch fails. -/
  fails : ∀ b l, Writes b l → ∀ err,
    (e.runText moments s b).1 = .error err ↔ (e.run moments s l).1 = .error err
  /-- It succeeds as the batch succeeds, with a text that writes the answers and nothing else. -/
  answers : ∀ b l, Writes b l → ∀ answers, (e.run moments s l).1 = .ok answers ↔
    ∃ out, (e.runText moments s b).1 = .ok out ∧ ∀ l', WritesStrings out l' ↔ l' = answers
  /-- A text is refused just if it writes no batch. -/
  refused_iff : ∀ b,
    (e.runText moments s b).1 = .error .malformedBatch ↔ ¬ ∃ l, Writes b l
  /-- Nothing is run then. -/
  unrun : ∀ b, (¬ ∃ l, Writes b l) → (e.runText moments s b).2 = s
  /-- A text that breaks off is refused, however many of its entries are whole. -/
  broken : ∀ p q l, Writes (p ++ q) l → ¬ Json.Blanks q [] →
    e.runText moments s p = (.error .malformedBatch, s)
  /-- So is one that does not stop behind the batch. -/
  overlong : ∀ p q l, Writes p l → ¬ Json.Blanks q [] →
    e.runText moments s (p ++ q) = (.error .malformedBatch, s)

/-- **A batch and its text do the same**, for every engine, account, registry and course of the
clock; and a text that writes no batch does nothing. -/
theorem exchanges (e : Engine) (moments : Nat → Moment) (s : Session) : e.Exchanges moments s where
  written := writes_encode
  unique _ _ _ := Writes.unique
  leaves b l h := by rw [runText_of_writes h]
  fails b l h err := by
    rw [runText_of_writes h]
    cases (e.run moments s l).1 <;> simp [Except.map]
  answers b l h answers := by
    rw [runText_of_writes h]
    cases (e.run moments s l).1 with
    | error err => simp [Except.map]
    | ok found =>
        simp only [Except.map, Except.ok.injEq, exists_eq_left']
        constructor
        · rintro rfl l'
          refine ⟨fun hl' => hl'.unique (writesStrings_encodeStrings _), ?_⟩
          rintro rfl
          exact writesStrings_encodeStrings _
        · intro honly
          exact (honly found).mp (writesStrings_encodeStrings found)
  refused_iff b := by
    constructor
    · rintro hrefused ⟨l, hl⟩
      rw [runText_of_writes hl] at hrefused
      have hrun : (e.run moments s l).1 ≠ .error .malformedBatch := runFrom_ne_malformedBatch 0
      cases hresult : (e.run moments s l).1 with
      | ok answers =>
          rw [hresult] at hrefused
          cases hrefused
      | error err =>
          rw [hresult] at hrefused
          cases hrefused
          exact hrun hresult
    · intro hnone
      rw [runText_of_not_writes hnone]
  unrun b hnone := by rw [runText_of_not_writes hnone]
  broken p q l h hq := by
    refine runText_of_not_writes ?_
    rintro ⟨l', hl'⟩
    exact hq (hl'.append h)
  overlong p q l h hq := by
    refine runText_of_not_writes ?_
    rintro ⟨l', hl'⟩
    exact hq (h.append hl')

end Engine
end CredentialServer
