import CredentialServer.Batch.Text
import CredentialServer.Grants.Compile

/-!
# Running operations

An operation names a grant; the account that a session acts as must hold a privilege under it. A
batch is a row of operations in one session, which ends at the first one that fails. Whatever was
done before stays done. Main statements: `run_append` (a batch is run piece by piece) and
`invoke_eq_ok_iff` (which privilege is run).
-/

namespace CredentialServer

/-- The compiled grants of a server, with the directory that they were compiled from. -/
structure Engine where
  directory : Directory
  grants : NameMap BoundGrant

namespace Engine

/-- An engine that refuses everything. -/
def denyAll (directory : Directory) : Engine := ⟨directory, ∅⟩

def compile (directory : Directory) (authorities : Authorities) (grants : NameMap Grant) :
    Except GrantError Engine :=
  match compileGrants directory authorities grants with
  | .error e => .error e
  | .ok grants => .ok ⟨directory, grants⟩

def size (e : Engine) : Nat := e.grants.size

/-- The privilege of a principal under a grant. -/
def privilegeOf (e : Engine) (principal api : String) : Except OperationError Privilege :=
  match e.grants.find? api with
  | none => .error (.unknownApi api)
  | some grant =>
    match grant.holders.find? principal with
    | none => .error (.forbidden principal api)
    | some privilege => .ok privilege

/-- Runs an operation as the account that the session acts as. An error changes nothing. -/
def invoke (e : Engine) (now : Moment) (s : Session) (o : Operation) :
    Except OperationError (String × Session) :=
  match e.privilegeOf s.acting.principal o.api with
  | .error err => .error err
  | .ok privilege =>
    match privilege.invoke e.directory now s o.body with
    | .error err => .error (.failed o.api s.acting.principal err)
    | .ok result => .ok result

/-- Runs a batch whose first operation is number `n`, and has that moment. -/
def runFrom (e : Engine) (moments : Nat → Moment) :
    Nat → Session → List Operation → Except OperationError (List String) × Session
  | _, s, [] => (.ok [], s)
  | n, s, o :: rest =>
    match e.invoke (moments n) s o with
    | .error err => (.error err, s)
    | .ok (answer, s) =>
      match runFrom e moments (n + 1) s rest with
      | (.error err, s) => (.error err, s)
      | (.ok answers, s) => (.ok (answer :: answers), s)

def run (e : Engine) (moments : Nat → Moment) (s : Session) (l : List Operation) :
    Except OperationError (List String) × Session := e.runFrom moments 0 s l

/-- Runs a batch that is given as text and answers with text. A text that is no batch runs
nothing. -/
def runText (e : Engine) (moments : Nat → Moment) (s : Session) (body : Bytes) :
    Except OperationError Bytes × Session :=
  match Batch.read? body with
  | none => (.error .malformedBatch, s)
  | some l =>
    match e.run moments s l with
    | (.error err, s) => (.error err, s)
    | (.ok answers, s) => (.ok (Batch.encodeStrings answers), s)

/-! ### Laws -/

theorem privilegeOf_eq_ok_iff {e : Engine} {principal api : String} {p : Privilege} :
    e.privilegeOf principal api = .ok p ↔
      ∃ grant, e.grants.find? api = some grant ∧ grant.holders.find? principal = some p := by
  simp only [privilegeOf]
  cases e.grants.find? api with
  | none => simp
  | some grant => cases h : grant.holders.find? principal <;> simp [h]

theorem invoke_eq_ok_iff {e : Engine} {now : Moment} {s : Session} {o : Operation}
    {r : String × Session} : e.invoke now s o = .ok r ↔
      ∃ p, e.privilegeOf s.acting.principal o.api = .ok p ∧
        p.invoke e.directory now s o.body = .ok r := by
  simp only [invoke]
  cases e.privilegeOf s.acting.principal o.api with
  | error err => simp
  | ok p => cases h : p.invoke e.directory now s o.body <;> simp [h]

/-- A batch is run piece by piece: the second piece starts where the first one ended. -/
theorem run_append {e : Engine} {moments : Nat → Moment} {a : List Operation} {s s' : Session}
    {n : Nat} {answers : List String} (h : e.runFrom moments n s a = (.ok answers, s'))
    (b : List Operation) : e.runFrom moments n s (a ++ b) =
      ((e.runFrom moments (n + a.length) s' b).1.map (answers ++ ·),
        (e.runFrom moments (n + a.length) s' b).2) := by
  induction a generalizing s n answers with
  | nil =>
    cases h
    simp only [List.nil_append, List.length_nil, Nat.add_zero]
    generalize e.runFrom moments n s' b = r
    obtain ⟨r, s''⟩ := r
    cases r <;> rfl
  | cons o a ih =>
    simp only [runFrom] at h
    rw [List.cons_append, runFrom]
    split at h
    · cases h
    · next answer s₁ hi =>
      split at h
      · cases h
      · next rest s₂ hr =>
        cases h
        have := ih hr
        simp only [this, List.length_cons, show n + (a.length + 1) = n + 1 + a.length by omega]
        cases e.runFrom moments (n + 1 + a.length) s' b with
        | mk r s'' => cases r <;> rfl

/-- A batch that fails does so whatever comes behind it. -/
theorem runFrom_append_of_error {e : Engine} {moments : Nat → Moment} {a : List Operation}
    {s s' : Session} {n : Nat} {err : OperationError}
    (h : e.runFrom moments n s a = (.error err, s')) (b : List Operation) :
    e.runFrom moments n s (a ++ b) = (.error err, s') := by
  induction a generalizing s n with
  | nil => cases h
  | cons o a ih =>
    simp only [runFrom] at h
    rw [List.cons_append, runFrom]
    split at h
    · exact h
    · next answer s₁ hi =>
      split at h
      · next hr => cases h; simp only [ih hr]
      · cases h

end Engine

end CredentialServer
