import CredentialServer.Grants.Engine

/-! # A batch is run from left to right, up to the first failure

Two things change while a batch is run: whom it acts as, and the tokens.  `Passes` follows both from
one operation to the next without running the batch.  By induction on the batch, a run succeeds just
if every operation passes (`run_eq_ok_iff`), and fails just as the first one that does not
(`run_eq_error_iff`).  Main statement: `runsInOrder`. -/

namespace CredentialServer

/-- What a refusal of an operation says: which operation it was, and whom it was run as if there is
such an operation at all. -/
def OperationError.Blames (err : OperationError) (principal api : String) : Prop :=
  err = .unknownApi api ∨ err = .forbidden principal api ∨
    ∃ cause, err = .failed api principal cause

namespace Engine

/-- The first `k` operations of a batch succeed.  Operation number `i` starts in `sessions i`, sees
its own moment, gives answer number `i` and leaves the session in which the next one starts. -/
structure Passes (e : Engine) (moments : Nat → Moment) (s : Session) (l : List Operation) (k : Nat)
    (sessions : Nat → Session) (answers : List String) : Prop where
  start : sessions 0 = s
  length_answers : answers.length = k
  step : ∀ i, i < k → ∃ o answer, l[i]? = some o ∧ answers[i]? = some answer ∧
    e.invoke (moments i) (sessions i) o = .ok (answer, sessions (i + 1))

section
variable {e : Engine} {moments moments' : Nat → Moment} {s t : Session} {l l' : List Operation}
variable {k : Nat} {o : Operation} {answer : String} {answers : List String}
variable {sessions : Nat → Session} {err : OperationError}

/-! ### One operation and the rest -/

theorem runFrom_eq_run (e : Engine) (moments : Nat → Moment) (n : Nat) (s : Session)
    (l : List Operation) : e.runFrom moments n s l = e.run (fun i => moments (n + i)) s l := by
  unfold run
  have key : ∀ m, e.runFrom moments (n + m) s l = e.runFrom (fun i => moments (n + i)) m s l := by
    induction l generalizing s with
    | nil => exact fun _ => rfl
    | cons o l ih =>
        intro m
        unfold runFrom
        cases e.invoke (moments (n + m)) s o with
        | error err => rfl
        | ok result => simp only [Nat.add_assoc, ih]
  exact key 0

theorem run_cons_of_ok (h : e.invoke (moments 0) s o = .ok (answer, t)) (l : List Operation) :
    e.run moments s (o :: l) =
      ((e.run (fun i => moments (i + 1)) t l).1.map (answer :: ·),
        (e.run (fun i => moments (i + 1)) t l).2) := by
  have hrest : e.runFrom moments 1 t l = e.run (fun i => moments (i + 1)) t l := by
    rw [runFrom_eq_run]
    simp only [Nat.add_comm 1]
  rw [run, runFrom, h]
  simp only [hrest, Nat.zero_add]
  cases e.run (fun i => moments (i + 1)) t l with
  | mk result u => cases result <;> rfl

theorem run_cons_of_error (h : e.invoke (moments 0) s o = .error err) (l : List Operation) :
    e.run moments s (o :: l) = (.error err, s) := by
  rw [run, runFrom, h]

theorem passes_zero : e.Passes moments s l 0 sessions answers ↔ sessions 0 = s ∧ answers = [] := by
  constructor
  · intro h
    exact ⟨h.start, List.length_eq_zero_iff.mp h.length_answers⟩
  · rintro ⟨hs, rfl⟩
    exact ⟨hs, rfl, fun i hi => absurd hi (Nat.not_lt_zero i)⟩

theorem passes_succ_cons : e.Passes moments s (o :: l) (k + 1) sessions answers ↔
    sessions 0 = s ∧ ∃ answer rest, answers = answer :: rest ∧
      e.invoke (moments 0) s o = .ok (answer, sessions 1) ∧
      e.Passes (fun i => moments (i + 1)) (sessions 1) l k (fun i => sessions (i + 1)) rest := by
  constructor
  · intro h
    obtain ⟨answer, rest, rfl⟩ := List.exists_cons_of_length_eq_add_one h.length_answers
    obtain ⟨o', answer', ho, hanswer, hfirst⟩ := h.step 0 (Nat.succ_pos k)
    cases ho
    cases hanswer
    rw [h.start] at hfirst
    refine ⟨h.start, answer, rest, rfl, hfirst, rfl, ?_, ?_⟩
    · exact Nat.succ.inj h.length_answers
    · intro i hi
      obtain ⟨o', answer', ho, hanswer, hstep⟩ := h.step (i + 1) (Nat.succ_lt_succ hi)
      exact ⟨o', answer', ho, hanswer, hstep⟩
  · rintro ⟨hs, answer, rest, rfl, hfirst, hrest⟩
    refine ⟨hs, by rw [List.length_cons, hrest.length_answers], ?_⟩
    intro i hi
    cases i with
    | zero =>
        rw [hs]
        exact ⟨o, answer, rfl, rfl, hfirst⟩
    | succ i =>
        obtain ⟨o', answer', ho, hanswer, hstep⟩ := hrest.step i (Nat.lt_of_succ_lt_succ hi)
        exact ⟨o', answer', ho, hanswer, hstep⟩

/-- The sessions of a batch, given the first one and those of the rest. -/
def before (s : Session) (sessions : Nat → Session) : Nat → Session
  | 0 => s
  | i + 1 => sessions i

/-! ### Whole batches -/

/-- A run succeeds if every operation does in the session that the ones before it left. -/
theorem run_eq_ok_iff : e.run moments s l = (.ok answers, t) ↔
    ∃ sessions, e.Passes moments s l l.length sessions answers ∧ sessions l.length = t := by
  induction l generalizing moments s answers with
  | nil =>
      simp only [List.length_nil, passes_zero]
      constructor
      · intro h
        cases h
        exact ⟨fun _ => t, ⟨rfl, rfl⟩, rfl⟩
      · rintro ⟨sessions, ⟨rfl, rfl⟩, rfl⟩
        rfl
  | cons o l ih =>
      simp only [List.length_cons, passes_succ_cons]
      cases hfirst : e.invoke (moments 0) s o with
      | error err => simp [run_cons_of_error hfirst]
      | ok result =>
          obtain ⟨answer, s'⟩ := result
          rw [run_cons_of_ok hfirst]
          constructor
          · intro h
            cases hrun : e.run (fun i => moments (i + 1)) s' l with
            | mk result u =>
                cases result with
                | error err =>
                    rw [hrun] at h
                    cases h
                | ok rest =>
                    rw [hrun] at h
                    cases h
                    obtain ⟨sessions, hpasses, hlast⟩ := ih.mp hrun
                    refine ⟨before s sessions, ⟨rfl, answer, rest, rfl, ?_, ?_⟩, hlast⟩
                    · rw [show before s sessions 1 = s' from hpasses.start]
                    · rw [show before s sessions 1 = s' from hpasses.start]
                      exact hpasses
          · rintro ⟨sessions, ⟨hs, answer', rest, rfl, hinvoke, hpasses⟩, hlast⟩
            cases hinvoke
            rw [ih.mpr ⟨_, hpasses, hlast⟩]
            rfl

/-- A run fails as the first operation that fails in the session that the ones before it left, and
leaves the session as this operation found it. -/
theorem run_eq_error_iff : e.run moments s l = (.error err, t) ↔
    ∃ k sessions answers o, e.Passes moments s l k sessions answers ∧ sessions k = t ∧
      l[k]? = some o ∧ e.invoke (moments k) t o = .error err := by
  induction l generalizing moments s with
  | nil =>
      constructor
      · intro h
        cases h
      · rintro ⟨k, sessions, answers, o, -, -, ho, -⟩
        cases ho
  | cons o l ih =>
      cases hfirst : e.invoke (moments 0) s o with
      | error err' =>
          rw [run_cons_of_error hfirst]
          constructor
          · intro h
            cases h
            exact ⟨0, fun _ => t, [], o, passes_zero.mpr ⟨rfl, rfl⟩, rfl, rfl, hfirst⟩
          · rintro ⟨k, sessions, answers, o', hpasses, rfl, ho, herr⟩
            cases k with
            | zero =>
                cases ho
                rw [hpasses.start, hfirst] at herr
                cases herr
                rw [hpasses.start]
            | succ k =>
                obtain ⟨-, answer, rest, -, hinvoke, -⟩ := passes_succ_cons.mp hpasses
                rw [hfirst] at hinvoke
                cases hinvoke
      | ok result =>
          obtain ⟨answer, s'⟩ := result
          rw [run_cons_of_ok hfirst]
          have hmap : ((e.run (fun i => moments (i + 1)) s' l).1.map (answer :: ·),
                (e.run (fun i => moments (i + 1)) s' l).2) = (.error err, t) ↔
              e.run (fun i => moments (i + 1)) s' l = (.error err, t) := by
            cases e.run (fun i => moments (i + 1)) s' l with
            | mk result u => cases result <;> simp [Except.map]
          rw [hmap, ih]
          constructor
          · rintro ⟨k, sessions, answers, o', hpasses, hlast, ho, herr⟩
            refine ⟨k + 1, before s sessions, answer :: answers, o', ?_, hlast, ho, herr⟩
            refine passes_succ_cons.mpr ⟨rfl, answer, answers, rfl, ?_, ?_⟩
            · rw [show before s sessions 1 = s' from hpasses.start]
              exact hfirst
            · rw [show before s sessions 1 = s' from hpasses.start]
              exact hpasses
          · rintro ⟨k, sessions, answers, o', hpasses, hlast, ho, herr⟩
            cases k with
            | zero =>
                cases ho
                rw [← hlast, hpasses.start, hfirst] at herr
                cases herr
            | succ k =>
                obtain ⟨-, answer', rest, -, hinvoke, hrest⟩ := passes_succ_cons.mp hpasses
                rw [hfirst] at hinvoke
                cases hinvoke
                exact ⟨k, fun i => sessions (i + 1), rest, o', hrest, hlast, ho, herr⟩

/-! ### Pieces of a batch -/

/-- Whether a piece of a batch passes depends on its own operations and moments alone. -/
theorem Passes.congr (h : e.Passes moments s l k sessions answers)
    (hl : l'.take k = l.take k) (hm : ∀ i, i < k → moments' i = moments i) :
    e.Passes moments' s l' k sessions answers := by
  refine ⟨h.start, h.length_answers, ?_⟩
  intro i hi
  obtain ⟨o, answer, ho, hanswer, hstep⟩ := h.step i hi
  refine ⟨o, answer, ?_, hanswer, ?_⟩
  · rw [← List.getElem?_take_of_lt hi, hl, List.getElem?_take_of_lt hi, ho]
  · rw [hm i hi, hstep]

theorem Passes.le_length (h : e.Passes moments s l k sessions answers) : k ≤ l.length := by
  cases k with
  | zero => exact Nat.zero_le _
  | succ k =>
      obtain ⟨o, -, ho, -⟩ := h.step k (Nat.lt_succ_self k)
      obtain ⟨hlt, -⟩ := List.getElem?_eq_some_iff.mp ho
      exact hlt

theorem Passes.run_take (h : e.Passes moments s l k sessions answers) :
    e.run moments s (l.take k) = (.ok answers, sessions k) := by
  have hlength : (l.take k).length = k := List.length_take_of_le h.le_length
  refine run_eq_ok_iff.mpr ⟨sessions, ?_, by rw [hlength]⟩
  rw [hlength]
  exact h.congr (by rw [List.take_take, Nat.min_self]) fun _ _ => rfl

/-- Two pieces are run one after the other.  The second one is not run if the first one fails. -/
theorem run_append_eq (e : Engine) (moments : Nat → Moment) (s : Session) (a b : List Operation) :
    e.run moments s (a ++ b) =
      match e.run moments s a with
      | (.error err, t) => (.error err, t)
      | (.ok answers, t) =>
        ((e.run (fun i => moments (a.length + i)) t b).1.map (answers ++ ·),
          (e.run (fun i => moments (a.length + i)) t b).2) := by
  cases ha : e.run moments s a with
  | mk result t =>
      cases result with
      | error err => exact runFrom_append_of_error ha b
      | ok answers =>
          have := run_append ha b
          rw [Nat.zero_add, runFrom_eq_run e moments a.length] at this
          exact this

/-- A refusal names the operation that was refused and the account that acted then. -/
theorem blames_of_invoke {now : Moment} (h : e.invoke now s o = .error err) :
    err.Blames s.acting.principal o.api := by
  unfold invoke privilegeOf at h
  cases hgrant : e.grants.find? o.api with
  | none =>
      rw [hgrant] at h
      cases h
      exact .inl rfl
  | some grant =>
      rw [hgrant] at h
      simp only at h
      cases hheld : grant.holders.find? s.acting.principal with
      | none =>
          rw [hheld] at h
          cases h
          exact .inr (.inl rfl)
      | some p =>
          rw [hheld] at h
          simp only at h
          cases hp : p.invoke e.directory now s o.body with
          | ok result =>
              rw [hp] at h
              cases h
          | error cause =>
              rw [hp] at h
              cases h
              exact .inr (.inr ⟨cause, rfl⟩)

end

/-- What it means to run a batch from left to right, up to the first failure. -/
structure RunsInOrder (e : Engine) (moments : Nat → Moment) (s : Session) (l : List Operation) :
    Prop where
  /-- A run succeeds just if every operation does in the session that the ones before it left.  It
  then has one answer for each operation, in order. -/
  succeeds : ∀ answers t, e.run moments s l = (.ok answers, t) ↔
    ∃ sessions, e.Passes moments s l l.length sessions answers ∧ sessions l.length = t
  /-- It fails just if some operation does in the session that the ones before it left.  The error
  is that of this operation, and the session is as this operation found it. -/
  fails : ∀ err t, e.run moments s l = (.error err, t) ↔
    ∃ k sessions answers o, e.Passes moments s l k sessions answers ∧ sessions k = t ∧
      l[k]? = some o ∧ e.invoke (moments k) t o = .error err
  /-- The error names the account that acted at this operation. -/
  blames : ∀ k sessions answers o err, e.Passes moments s l k sessions answers → l[k]? = some o →
    e.invoke (moments k) (sessions k) o = .error err →
    err.Blames (sessions k).acting.principal o.api
  /-- The tokens are then those that the operations before it left when they were run by
  themselves. -/
  keeps : ∀ k sessions answers, e.Passes moments s l k sessions answers →
    e.run moments s (l.take k) = (.ok answers, sessions k)
  /-- What comes behind the first failure, operations and moments, makes no difference. -/
  ignores : ∀ k sessions answers o err, e.Passes moments s l k sessions answers → l[k]? = some o →
    e.invoke (moments k) (sessions k) o = .error err →
    ∀ moments' l', (∀ i, i ≤ k → moments' i = moments i) → l'.take (k + 1) = l.take (k + 1) →
      e.run moments' s l' = (.error err, sessions k)
  /-- However the batch is split, the second piece is run in the session that the first one left,
  and not at all if the first one failed. -/
  splits : ∀ a b, l = a ++ b → e.run moments s l =
    match e.run moments s a with
    | (.error err, t) => (.error err, t)
    | (.ok answers, t) =>
      ((e.run (fun i => moments (a.length + i)) t b).1.map (answers ++ ·),
        (e.run (fun i => moments (a.length + i)) t b).2)

/-- **A batch is the fold of its operations from left to right, up to the first failure**, for every
engine, account, registry and course of the clock. -/
theorem runsInOrder (e : Engine) (moments : Nat → Moment) (s : Session) (l : List Operation) :
    e.RunsInOrder moments s l := by
  refine ⟨fun _ _ => run_eq_ok_iff, fun _ _ => run_eq_error_iff, ?_, ?_, ?_, ?_⟩
  · intro k sessions answers o err _ _ herr
    exact blames_of_invoke herr
  · intro k sessions answers hpasses
    exact hpasses.run_take
  · intro k sessions answers o err hpasses ho herr moments' l' hm hl
    have htake : l'.take k = l.take k := by
      have := congrArg (List.take k) hl
      simpa [List.take_take, Nat.min_eq_left (Nat.le_succ k)] using this
    have ho' : l'[k]? = some o := by
      rw [← List.getElem?_take_of_lt (Nat.lt_succ_self k), hl,
        List.getElem?_take_of_lt (Nat.lt_succ_self k), ho]
    refine run_eq_error_iff.mpr ⟨k, sessions, answers, o, ?_, rfl, ho', ?_⟩
    · exact hpasses.congr htake fun i hi => hm i (Nat.le_of_lt hi)
    · rw [hm k (Nat.le_refl k), herr]
  · rintro a b rfl
    exact run_append_eq e moments s a b

end Engine
end CredentialServer
