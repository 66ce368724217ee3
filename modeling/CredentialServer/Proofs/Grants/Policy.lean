import CredentialServer.Grants.Engine
import CredentialServer.Proofs.Directory.Flattening
import CredentialServer.Proofs.Grants.Binding

/-! # The engine answers by the configured policy

A configuration says who may do what by three tables: the parents of groups, the groups of accounts
and the groups of grants.  An engine looks neither at parents nor at grants any more; it looks up an
operation and then a principal.  `Engine.FollowsPolicy` is what an operation should lead to, told
from the three tables alone.  Main statement: `followsPolicy_of_compile`. -/

namespace CredentialServer
namespace Engine

variable {groups : Groups} {accounts : List AccountConfig} {d : Directory}
variable {authorities : Authorities} {grants : NameMap Grant} {e : Engine}

/-! ### Look-ups in a compiled engine -/

theorem compile_eq_ok (h : compile d authorities grants = .ok e) :
    e.directory = d ∧ compileGrants d authorities grants = .ok e.grants := by
  unfold compile at h
  cases hg : compileGrants d authorities grants with
  | error err =>
      rw [hg] at h
      cases h
  | ok compiled =>
      rw [hg] at h
      cases h
      exact ⟨rfl, rfl⟩

theorem find?_compile_of_none (h : compile d authorities grants = .ok e) {api : String}
    (hapi : grants.find? api = none) : e.grants.find? api = none :=
  NameMap.find?_mapM_of_none (compile_eq_ok h).2 hapi

theorem find?_compile_of_some (h : compile d authorities grants = .ok e) {api : String} {g : Grant}
    (hapi : grants.find? api = some g) :
    ∃ b, compileGrant d authorities g = .ok b ∧ e.grants.find? api = some b := by
  obtain ⟨b, hb, hfind⟩ := NameMap.find?_mapM_of_some (compile_eq_ok h).2 hapi
  exact ⟨b, eq_ok_of_mapError_eq_ok hb, hfind⟩

theorem privilegeOf_of_unknown (h : compile d authorities grants = .ok e) {api : String}
    (hapi : grants.find? api = none) (principal : String) :
    e.privilegeOf principal api = .error (.unknownApi api) := by
  unfold privilegeOf
  rw [find?_compile_of_none h hapi]

/-- Who is not in the group of a grant is turned away. -/
theorem privilegeOf_of_not_belongs (hd : Directory.ofConfig groups accounts = .ok d)
    (he : compile d authorities grants = .ok e) {api : String} {g : Grant}
    (hapi : grants.find? api = some g) {a : Account} {principal : String}
    (ha : d.account principal = .ok a) (hno : ¬ a.BelongsTo groups g.group) :
    e.privilegeOf principal api = .error (.forbidden principal api) := by
  obtain ⟨b, hb, hfind⟩ := find?_compile_of_some he hapi
  obtain ⟨group, hgroup, hout, -⟩ := compileGrant_spec hb
  have hmember : group.hasMember principal = false := by
    rw [← Bool.not_eq_true, (Directory.flattens_ofConfig hd).hasMember_iff _ _ hgroup]
    rintro ⟨a', ha', hyes⟩
    rw [ha] at ha'
    cases ha'
    exact hno hyes
  unfold privilegeOf
  rw [hfind]
  simp only [hout principal hmember]

/-- Who is in the group of a grant holds what the grant gives to its account. -/
theorem privilegeOf_of_belongs (hd : Directory.ofConfig groups accounts = .ok d)
    (he : compile d authorities grants = .ok e) {api : String} {g : Grant}
    (hapi : grants.find? api = some g) {a : Account} {principal : String}
    (ha : d.account principal = .ok a) (hyes : a.BelongsTo groups g.group) :
    ∃ p, e.privilegeOf principal api = .ok p ∧ g.Binds d authorities a.metadata p := by
  obtain ⟨b, hb, hfind⟩ := find?_compile_of_some he hapi
  obtain ⟨group, hgroup, -, hin⟩ := compileGrant_spec hb
  have hmember : group.hasMember principal = true :=
    ((Directory.flattens_ofConfig hd).hasMember_iff _ _ hgroup principal).mpr ⟨a, ha, hyes⟩
  obtain ⟨a', p, ha', hp, hbinds⟩ := hin principal hmember
  rw [ha] at ha'
  cases ha'
  exact ⟨p, privilegeOf_eq_ok_iff.mpr ⟨b, hfind, hp⟩, hbinds⟩

/-- Whoever holds a privilege is an account that belongs to the group of its grant. -/
theorem exists_grant_of_privilegeOf (hd : Directory.ofConfig groups accounts = .ok d)
    (he : compile d authorities grants = .ok e) {principal api : String} {p : Privilege}
    (h : e.privilegeOf principal api = .ok p) : ∃ g a, grants.find? api = some g ∧
      d.account principal = .ok a ∧ a.BelongsTo groups g.group ∧
      g.Binds d authorities a.metadata p := by
  cases hapi : grants.find? api with
  | none =>
      rw [privilegeOf_of_unknown he hapi] at h
      cases h
  | some g =>
      obtain ⟨b, hb, hfind⟩ := find?_compile_of_some he hapi
      obtain ⟨group, hgroup, hout, hin⟩ := compileGrant_spec hb
      obtain ⟨b', hfind', hheld⟩ := privilegeOf_eq_ok_iff.mp h
      rw [hfind] at hfind'
      cases hfind'
      cases hm : group.hasMember principal with
      | false =>
          rw [hout principal hm] at hheld
          cases hheld
      | true =>
          obtain ⟨a, p', ha, hp', hbinds⟩ := hin principal hm
          rw [hheld] at hp'
          cases hp'
          obtain ⟨a', ha', hyes⟩ :=
            ((Directory.flattens_ofConfig hd).hasMember_iff _ _ hgroup principal).mp hm
          rw [ha] at ha'
          cases ha'
          exact ⟨g, a, rfl, ha, hyes, hbinds⟩

/-! ### Answers -/

theorem invoke_of_privilegeOf_error {now : Moment} {s : Session} {o : Operation}
    {err : OperationError} (h : e.privilegeOf s.acting.principal o.api = .error err) :
    e.invoke now s o = .error err := by
  unfold invoke
  rw [h]

theorem invoke_of_privilegeOf_ok {now : Moment} {s : Session} {o : Operation} {p : Privilege}
    (h : e.privilegeOf s.acting.principal o.api = .ok p) : e.invoke now s o =
      match p.invoke e.directory now s o.body with
      | .ok result => .ok result
      | .error cause => .error (.failed o.api s.acting.principal cause) := by
  unfold invoke
  rw [h]
  cases hp : p.invoke e.directory now s o.body <;> simp only [hp]

/-- An operation that fails ends its batch and leaves the session as it found it, whatever was run
before. -/
theorem runFrom_append_of_invoke_error {moments : Nat → Moment} {n : Nat} {start s : Session}
    {before after : List Operation} {answers : List String} {o : Operation} {err : OperationError}
    (hbefore : e.runFrom moments n start before = (.ok answers, s))
    (h : e.invoke (moments (n + before.length)) s o = .error err) :
    e.runFrom moments n start (before ++ o :: after) = (.error err, s) := by
  rw [run_append hbefore, runFrom, h]
  rfl

/-- What an operation leads to in a session, going by the configured groups and grants alone. -/
structure FollowsPolicy (groups : Groups) (authorities : Authorities) (grants : NameMap Grant)
    (e : Engine) (s : Session) (o : Operation) : Prop where
  /-- An operation is unknown just if there is no grant of its name. -/
  unknownApi : ∀ now, e.invoke now s o = .error (.unknownApi o.api) ↔ grants.find? o.api = none
  /-- It is forbidden just if the line of groups above that of the account misses that of the
  grant. -/
  forbidden : ∀ now, e.invoke now s o = .error (.forbidden s.acting.principal o.api) ↔
    ∃ g, grants.find? o.api = some g ∧ ¬ s.acting.BelongsTo groups g.group
  /-- Otherwise it runs the one privilege that the grant gives to this account. -/
  held : ∀ g, grants.find? o.api = some g → s.acting.BelongsTo groups g.group →
    ∃ p, (∀ q, g.Binds e.directory authorities s.acting.metadata q ↔ q = p) ∧
      ∀ now, e.invoke now s o =
        match p.invoke e.directory now s o.body with
        | .ok result => .ok result
        | .error cause => .error (.failed o.api s.acting.principal cause)
  /-- A refusal names this operation and this account. -/
  named : ∀ now, (∀ api, e.invoke now s o = .error (.unknownApi api) → api = o.api) ∧
    ∀ principal api, e.invoke now s o = .error (.forbidden principal api) →
      principal = s.acting.principal ∧ api = o.api
  /-- A refusal ends the batch where it is, with account and tokens as they were. -/
  unchanged : ∀ moments n start before after answers err,
    e.runFrom moments n start before = (.ok answers, s) →
    e.invoke (moments (n + before.length)) s o = .error err →
    e.runFrom moments n start (before ++ o :: after) = (.error err, s)

theorem invoke_ne_refusal {now : Moment} {s : Session} {o : Operation} {p : Privilege}
    (h : e.privilegeOf s.acting.principal o.api = .ok p) :
    (∀ api, e.invoke now s o ≠ .error (.unknownApi api)) ∧
      ∀ principal api, e.invoke now s o ≠ .error (.forbidden principal api) := by
  rw [invoke_of_privilegeOf_ok h]
  cases p.invoke e.directory now s o.body <;> simp

/-- **The decision of an engine is the configured policy**, for every configuration that can be
compiled, every account of it, and every operation. -/
theorem followsPolicy_of_compile (hd : Directory.ofConfig groups accounts = .ok d)
    (he : compile d authorities grants = .ok e) {c : AccountConfig} (hc : c ∈ accounts)
    {s : Session} (ha : Account.ofConfig c = .ok s.acting) (o : Operation) :
    e.FollowsPolicy groups authorities grants s o := by
  have haccount : d.account s.acting.principal = .ok s.acting :=
    ((Directory.flattens_ofConfig hd).account_iff _ _).mpr ⟨rfl, c, hc, ha⟩
  have hdir := (compile_eq_ok he).1
  have hunchanged : ∀ moments n start before after answers err,
      e.runFrom moments n start before = (.ok answers, s) →
      e.invoke (moments (n + before.length)) s o = .error err →
      e.runFrom moments n start (before ++ o :: after) = (.error err, s) :=
    fun _ _ _ _ _ _ _ => runFrom_append_of_invoke_error
  cases hapi : grants.find? o.api with
  | none =>
      have hinvoke : ∀ now, e.invoke now s o = .error (.unknownApi o.api) :=
        fun now => invoke_of_privilegeOf_error (privilegeOf_of_unknown he hapi _)
      refine ⟨?_, ?_, ?_, ?_, hunchanged⟩
      · simp [hinvoke, hapi]
      · simp [hinvoke, hapi]
      · simp [hapi]
      · simp [hinvoke]
  | some g =>
      by_cases hyes : s.acting.BelongsTo groups g.group
      · obtain ⟨p, hp, hbinds⟩ := privilegeOf_of_belongs hd he hapi haccount hyes
        rw [← hdir] at hbinds
        refine ⟨?_, ?_, ?_, ?_, hunchanged⟩
        · intro now
          simp [(invoke_ne_refusal hp).1, hapi]
        · intro now
          simp [(invoke_ne_refusal hp).2, hapi, hyes]
        · rintro g' hg' -
          rw [hapi] at hg'
          cases hg'
          refine ⟨p, ?_, fun now => invoke_of_privilegeOf_ok hp⟩
          intro q
          constructor
          · intro hq
            exact hq.unique hbinds
          · rintro rfl
            exact hbinds
        · intro now
          refine ⟨fun api h => ?_, fun principal api h => ?_⟩
          · exact absurd h ((invoke_ne_refusal hp).1 api)
          · exact absurd h ((invoke_ne_refusal hp).2 principal api)
      · have hinvoke : ∀ now, e.invoke now s o =
            .error (.forbidden s.acting.principal o.api) := fun now =>
          invoke_of_privilegeOf_error (privilegeOf_of_not_belongs hd he hapi haccount hyes)
        refine ⟨?_, ?_, ?_, ?_, hunchanged⟩
        · simp [hinvoke, hapi]
        · simp [hinvoke, hapi, hyes]
        · intro g' hg' hyes'
          rw [hapi] at hg'
          cases hg'
          exact absurd hyes' hyes
        · simp [hinvoke, eq_comm]

/-! ### A small configuration -/

def greetingGroups : Groups := NameMap.ofList [("staff", ⟨none⟩), ("operators", ⟨some "staff"⟩)]

def greeted : AccountConfig := { (default : AccountConfig) with
  principal := "ann", group := some "operators", metadata := NameMap.ofList [("desk", "4")] }

/-- All staff are greeted. -/
def greetingGrants : NameMap Grant := NameMap.ofList [("greet", { (default : Grant) with
  group := "staff", privilege := "construct-configuration",
  contents := some "(principal) at (desk)" })]

theorem followsPolicy_of_greeting : ∃ d e a,
    Directory.ofConfig greetingGroups [greeted] = .ok d ∧
    compile d ∅ greetingGrants = .ok e ∧ Account.ofConfig greeted = .ok a ∧
    a.BelongsTo greetingGroups "staff" ∧
    e.FollowsPolicy greetingGroups ∅ greetingGrants ⟨a, .empty⟩ ⟨"greet", ""⟩ := by
  have hloaded : ((Directory.ofConfig greetingGroups [greeted]).toOption.bind
      (fun d => (compile d ∅ greetingGrants).toOption)).isSome = true := by decide +kernel
  obtain ⟨d, e, hd, he⟩ := exists_ok_of_isSome hloaded
  have hc : greeted ∈ [greeted] := List.mem_cons_self
  obtain ⟨a, ha⟩ := (Directory.flattens_ofConfig hd).valid _ hc
  have hgroup := (Account.ofConfig_eq_ok ha).2.2.1
  have hparent : greetingGroups.parent? "operators" = some "staff" := by decide +kernel
  refine ⟨d, e, a, hd, he, ha, ⟨"operators", hgroup, .step hparent (.refl _)⟩, ?_⟩
  exact followsPolicy_of_compile hd he hc (s := ⟨a, .empty⟩) ha ⟨"greet", ""⟩

end Engine
end CredentialServer
