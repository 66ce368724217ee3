import CredentialServer.Grants.Engine

/-! # Whom a batch acts as

A batch acts as one account until an impersonation makes it act as another one.  `RunsAt` says that
an operation of a batch is run in a session under a privilege; by `reaches_succ_iff` the sessions of
a batch follow each other by running one privilege after the other.  Main statement:
`acting_of_reaches`, by induction on the number of operations: a batch acts as the account that it
started with or as the one that its latest impersonation asked for. -/

namespace CredentialServer
namespace Engine

/-- A batch gets past its first `k` operations, and is then in a session. -/
def Reaches (e : Engine) (moments : Nat → Moment) (start : Session) (l : List Operation) (k : Nat)
    (s : Session) : Prop :=
  k ≤ l.length ∧ ∃ answers, e.runFrom moments 0 start (l.take k) = (.ok answers, s)

/-- Operation number `k` of a batch is run in a session, under a privilege. -/
structure RunsAt (e : Engine) (moments : Nat → Moment) (start : Session) (l : List Operation)
    (k : Nat) (s : Session) (o : Operation) (p : Privilege) : Prop where
  reached : e.Reaches moments start l k s
  entry : l[k]? = some o
  held : e.privilegeOf s.acting.principal o.api = .ok p

section
variable {e : Engine} {moments : Nat → Moment} {start s s' : Session} {l : List Operation}
variable {k : Nat} {o : Operation} {p : Privilege}

/-! ### One operation after the other -/

theorem runFrom_singleton {n : Nat} {answers : List String} :
    e.runFrom moments n s [o] = (.ok answers, s') ↔
      ∃ answer, answers = [answer] ∧ e.invoke (moments n) s o = .ok (answer, s') := by
  simp only [runFrom]
  cases e.invoke (moments n) s o with
  | error err => simp
  | ok result =>
      obtain ⟨answer, t⟩ := result
      simp only [Prod.mk.injEq, Except.ok.injEq]
      constructor
      · rintro ⟨rfl, rfl⟩
        exact ⟨answer, rfl, rfl, rfl⟩
      · rintro ⟨_, rfl, rfl, rfl⟩
        exact ⟨rfl, rfl⟩

theorem runFrom_append_eq_ok_iff {n : Nat} {a b : List Operation} :
    (∃ answers, e.runFrom moments n s (a ++ b) = (.ok answers, s')) ↔
      ∃ t, (∃ answers, e.runFrom moments n s a = (.ok answers, t)) ∧
        ∃ answers, e.runFrom moments (n + a.length) t b = (.ok answers, s') := by
  cases ha : e.runFrom moments n s a with
  | mk result t =>
      cases result with
      | error err =>
          rw [runFrom_append_of_error ha]
          simp
      | ok first =>
          rw [run_append ha]
          cases hb : e.runFrom moments (n + a.length) t b with
          | mk result u =>
              have hfirst : ∀ t', (∃ answers, ((.ok first : Except OperationError _), t) =
                  (.ok answers, t')) ↔ t' = t := by simp [eq_comm]
              simp only [hfirst, exists_eq_left, hb]
              cases result <;> simp [Except.map]

theorem reaches_zero : e.Reaches moments start l 0 s ↔ s = start := by
  unfold Reaches
  simp [runFrom, eq_comm]

theorem Reaches.unique (h : e.Reaches moments start l k s) (h' : e.Reaches moments start l k s') :
    s = s' := by
  obtain ⟨-, answers, hrun⟩ := h
  obtain ⟨-, answers', hrun'⟩ := h'
  rw [hrun] at hrun'
  cases hrun'
  rfl

/-- The next session of a batch is the one that the privilege of its next operation leaves. -/
theorem reaches_succ_iff : e.Reaches moments start l (k + 1) s' ↔
    ∃ s o p answer, e.RunsAt moments start l k s o p ∧
      p.invoke e.directory (moments k) s o.body = .ok (answer, s') := by
  constructor
  · rintro ⟨hk, hrun⟩
    have hentry : l[k]? = some l[k] := List.getElem?_eq_getElem hk
    rw [List.take_add_one, hentry, Option.toList_some, runFrom_append_eq_ok_iff] at hrun
    obtain ⟨s, hbefore, answers, hlast⟩ := hrun
    rw [List.length_take_of_le (by omega), Nat.zero_add] at hlast
    obtain ⟨answer, -, hinvoke⟩ := runFrom_singleton.mp hlast
    obtain ⟨p, hheld, hp⟩ := invoke_eq_ok_iff.mp hinvoke
    exact ⟨s, l[k], p, answer, ⟨⟨by omega, hbefore⟩, hentry, hheld⟩, hp⟩
  · rintro ⟨s, o, p, answer, ⟨⟨_, hbefore⟩, hentry, hheld⟩, hp⟩
    obtain ⟨hk, -⟩ := List.getElem?_eq_some_iff.mp hentry
    refine ⟨hk, ?_⟩
    rw [List.take_add_one, hentry, Option.toList_some, runFrom_append_eq_ok_iff]
    refine ⟨s, hbefore, [answer], ?_⟩
    rw [List.length_take_of_le (by omega), Nat.zero_add, runFrom_singleton]
    exact ⟨answer, rfl, invoke_eq_ok_iff.mpr ⟨p, hheld, hp⟩⟩

theorem RunsAt.unique {t : Session} {o' : Operation} {q : Privilege}
    (h : e.RunsAt moments start l k s o p) (h' : e.RunsAt moments start l k t o' q) :
    s = t ∧ o = o' ∧ p = q := by
  obtain rfl := h.reached.unique h'.reached
  have ho := h.entry
  rw [h'.entry] at ho
  cases ho
  have hp := h.held
  rw [h'.held] at hp
  cases hp
  exact ⟨rfl, rfl, rfl⟩

/-! ### Impersonations -/

/-- No operation of a batch between two numbers is an impersonation that is run. -/
def KeepsActing (e : Engine) (moments : Nat → Moment) (start : Session) (l : List Operation)
    (i k : Nat) : Prop :=
  ∀ j, i ≤ j → j < k → ∀ s o p, e.RunsAt moments start l j s o p → p.kind ≠ .impersonate

/-- Operation number `j` of a batch is an impersonation that succeeds.  The body is in the scope of
the privilege that the acting account holds, and the account of that principal takes over. -/
structure Impersonates (e : Engine) (moments : Nat → Moment) (start : Session)
    (l : List Operation) (j : Nat) (s : Session) (o : Operation) (scope : Group) (a : Account) :
    Prop where
  runs : e.RunsAt moments start l j s o (.impersonate scope)
  inScope : scope.hasMember o.body = true
  account : e.directory.account o.body = .ok a
  after : e.Reaches moments start l (j + 1) { s with acting := a }

theorem invoke_impersonate {d : Directory} {scope : Group} {now : Moment} {body answer : String}
    (h : (Privilege.impersonate scope).invoke d now s body = .ok (answer, s')) :
    scope.hasMember body = true ∧ ∃ a, d.account body = .ok a ∧ s' = { s with acting := a } := by
  simp only [Privilege.invoke] at h
  split at h
  · next hmember =>
    split at h
    · next a ha =>
      cases h
      exact ⟨hmember, a, ha, rfl⟩
    · cases h
  · cases h

theorem eq_impersonate_of_kind (h : p.kind = .impersonate) : ∃ scope, p = .impersonate scope := by
  cases p with
  | impersonate scope => exact ⟨scope, rfl⟩
  | _ => cases h

theorem acting_eq_of_kind_ne {d : Directory} {now : Moment} {body answer : String}
    (h : p.invoke d now s body = .ok (answer, s')) (hkind : p.kind ≠ .impersonate) :
    s'.acting = s.acting := by
  rcases Privilege.acting_invoke h with hsame | ⟨scope, rfl, -, -⟩
  · exact hsame
  · exact absurd rfl hkind

theorem KeepsActing.succ {i : Nat} (h : e.KeepsActing moments start l i k)
    (hrun : e.RunsAt moments start l k s o p) (hkind : p.kind ≠ .impersonate) :
    e.KeepsActing moments start l i (k + 1) := by
  intro j hij hj t o' q hq
  rcases Nat.lt_or_ge j k with hlt | hge
  · exact h j hij hlt t o' q hq
  · obtain rfl : j = k := by omega
    obtain ⟨-, -, rfl⟩ := hrun.unique hq
    exact hkind

/-- Whom a batch acts as: the account that it started with, if no impersonation was run so far, and
otherwise the one of the latest impersonation. -/
theorem acting_of_reaches (h : e.Reaches moments start l k s) :
    (s.acting = start.acting ∧ e.KeepsActing moments start l 0 k) ∨
      ∃ j t o scope, j < k ∧ e.Impersonates moments start l j t o scope s.acting ∧
        e.KeepsActing moments start l (j + 1) k := by
  induction k generalizing s with
  | zero =>
      obtain rfl := reaches_zero.mp h
      exact .inl ⟨rfl, fun j _ hj => absurd hj (Nat.not_lt_zero j)⟩
  | succ k ih =>
      obtain ⟨t, o, p, answer, hrun, hp⟩ := reaches_succ_iff.mp h
      by_cases hkind : p.kind = .impersonate
      · obtain ⟨scope, rfl⟩ := eq_impersonate_of_kind hkind
        obtain ⟨hmember, a, ha, rfl⟩ := invoke_impersonate hp
        refine .inr ⟨k, t, o, scope, Nat.lt_succ_self k, ⟨hrun, hmember, ha, h⟩, ?_⟩
        intro j hkj hj
        omega
      · rw [acting_eq_of_kind_ne hp hkind]
        rcases ih hrun.reached with ⟨hsame, hkeeps⟩ | ⟨j, u, o', scope, hj, himp, hkeeps⟩
        · exact .inl ⟨hsame, hkeeps.succ hrun hkind⟩
        · exact .inr ⟨j, u, o', scope, by omega, himp, hkeeps.succ hrun hkind⟩

/-- A batch acts as accounts of the directory only. -/
theorem account_of_reaches (hstart : e.directory.account start.acting.principal = .ok start.acting)
    (hnames : ∀ principal a, e.directory.account principal = .ok a → a.principal = principal)
    (h : e.Reaches moments start l k s) :
    e.directory.account s.acting.principal = .ok s.acting := by
  rcases acting_of_reaches h with ⟨hsame, -⟩ | ⟨j, t, o, scope, -, himp, -⟩
  · rw [hsame]
    exact hstart
  · rw [hnames _ _ himp.account]
    exact himp.account

end

end Engine
end CredentialServer
