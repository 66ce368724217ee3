import CredentialServer.Proofs.Grants.Acting
import CredentialServer.Proofs.Grants.Policy
import CredentialServer.Proofs.Server.Loading
import CredentialServer.Server.Http
import Mathlib.Control.Monad.Basic

/-! # Nothing is run but as an account that the request proved or was allowed to become

Requests are answered one after the other, and what one of them leaves for the next are the tokens
alone.  A request opens a batch as the account that it authenticates as; from there on every
operation is run as this account or as the one of the latest impersonation of the same batch.
Main statement: `mediated_of_load`. -/

namespace CredentialServer
namespace World

/-! ### Requests in a row -/

/-- A request with what it finds when it is answered. -/
structure Visit where
  moments : Nat → Moment
  files : Files
  request : Request

/-- What the operations of a request find: the first moment is that of the authentication. -/
def Visit.batchMoments (v : Visit) (n : Nat) : Moment := v.moments (n + 1)

/-- The tokens after requests in a row. -/
def registryAfter (w : World) (r : Registry) (visits : List Visit) : Registry :=
  visits.foldl (fun r v => (w.respond v.files v.moments r v.request).2) r

/-- A request is for a batch and is accepted: the batch is run in a session that acts as the account
that was authenticated. -/
structure Opens (w : World) (r : Registry) (v : Visit) (start : Session) (l : List Operation) :
    Prop where
  route : Route.ofTarget v.request.target = .batch
  method : v.request.method = "POST"
  length : v.request.body.length ≤ longestBatch
  account : authenticate w.directory w.authentication (v.moments 0) r v.request.credentials =
    (.ok start.acting, start.registry)
  batch : Batch.read? v.request.body = some l

/-- A request that opens a batch is answered by running it, and the tokens that the batch leaves are
those that the next request finds. -/
theorem Opens.respond_eq {w : World} {r : Registry} {v : Visit} {start : Session}
    {l : List Operation} (h : w.Opens r v start l) :
    w.respond v.files v.moments r v.request =
      match w.engine.run v.batchMoments start l with
      | (.ok answers, s) => (.json (Batch.encodeStrings answers), s.registry)
      | (.error err, s) => ((Refusal.ofOperation err).response, s.registry) := by
  obtain ⟨hroute, hmethod, hlength, haccount, hbatch⟩ := h
  have hmoments : (fun n => v.moments (n + 1)) = v.batchMoments := rfl
  unfold respond
  rw [hroute]
  simp only [hmethod, if_true, answerBatch, if_neg (Nat.not_lt.mpr hlength), haccount,
    Engine.runText, hbatch, hmoments]
  cases w.engine.run v.batchMoments start l with
  | mk result s => cases result <;> rfl

/-- A request that opens no batch runs no operation: any other grants would have led to the same
answer and left the same tokens. -/
theorem respond_eq_of_not_opens {w : World} {r : Registry} {v : Visit}
    (h : ∀ start l, ¬ w.Opens r v start l) (grants : NameMap BoundGrant) :
    World.respond { w with engine := { w.engine with grants := grants } } v.files v.moments r
      v.request = w.respond v.files v.moments r v.request := by
  unfold respond
  cases hroute : Route.ofTarget v.request.target with
  | published name => rfl
  | static name => rfl
  | nowhere => rfl
  | batch =>
      by_cases hmethod : v.request.method = "POST"
      · simp only [hmethod, if_true, answerBatch]
        by_cases hlength : longestBatch < v.request.body.length
        · simp only [if_pos hlength]
        · simp only [if_neg hlength]
          have hauth : authenticate (World.directory { w with engine := { w.engine with
              grants := grants } }) w.authentication (v.moments 0) r v.request.credentials =
            authenticate w.directory w.authentication (v.moments 0) r v.request.credentials := rfl
          rw [hauth]
          cases haccount : authenticate w.directory w.authentication (v.moments 0) r
              v.request.credentials with
          | mk result r' =>
              cases result with
              | error err => rfl
              | ok account =>
                  cases hbatch : Batch.read? v.request.body with
                  | none => simp only [Engine.runText, hbatch]
                  | some l =>
                      exact absurd ⟨hroute, hmethod, Nat.not_lt.mp hlength, haccount, hbatch⟩
                        (h ⟨account, r'⟩ l)
      · simp only [if_neg hmethod]

theorem Opens.openAccount_eq {w : World} {r : Registry} {v : Visit} {start : Session}
    {l : List Operation} (h : w.Opens r v start l) : ∃ (method : Method) (principal : String),
      method.verify w.authentication (v.moments 0) r v.request.credentials =
        .ok (principal, start.registry) ∧
      w.directory.account principal = .ok start.acting ∧
      start.acting.disableDirectAuth = false ∧
      start.acting.allows v.request.credentials.remote = true := by
  obtain ⟨method, principal, -, hverify, hopen⟩ := authenticate_eq_ok h.account
  obtain ⟨haccount, hdirect, hallows⟩ := openAccount_eq_ok_iff.mp hopen
  exact ⟨method, principal, hverify, haccount, hdirect, hallows⟩

/-! ### Every operation of a batch -/

section
variable {files : Files} {c : Config} {w : World}

theorem flattens_load (hw : load files c = .ok w) : w.directory.Flattens c.groups c.accounts := by
  obtain ⟨d, hd, he⟩ := engine_load hw
  have hdir : w.directory = d := (Engine.compile_eq_ok he).1
  rw [hdir]
  exact Directory.flattens_ofConfig hd

theorem principal_of_account (hw : load files c = .ok w) {principal : String} {a : Account}
    (ha : w.directory.account principal = .ok a) : a.principal = principal :=
  ((flattens_load hw).account_iff _ _).mp ha |>.1

/-- Whoever holds a privilege in a loaded world is an account that its configuration gives it to. -/
theorem exists_grant_of_load (hw : load files c = .ok w) {principal api : String} {p : Privilege}
    (h : w.engine.privilegeOf principal api = .ok p) : ∃ g a, c.grants.find? api = some g ∧
      w.directory.account principal = .ok a ∧ a.BelongsTo c.groups g.group ∧
      g.Binds w.directory w.authorities a.metadata p := by
  obtain ⟨d, hd, he⟩ := engine_load hw
  have hdir : w.directory = d := (Engine.compile_eq_ok he).1
  rw [hdir]
  exact Engine.exists_grant_of_privilegeOf hd he h

theorem hasMember_scope_iff (hw : load files c = .ok w) {name : String} {scope : Group}
    (hscope : w.directory.group name = .ok scope) (principal : String) :
    scope.hasMember principal = true ↔
      ∃ a, w.directory.account principal = .ok a ∧ a.BelongsTo c.groups name :=
  (flattens_load hw).hasMember_iff name scope hscope principal

/-- What the configuration says of an impersonation: who is allowed it, and whom they may become. -/
def AllowsImpersonation (c : Config) (api : String) (holder target : Account) : Prop :=
  ∃ g scope, c.grants.find? api = some g ∧ g.privilege = "impersonate" ∧
    holder.BelongsTo c.groups g.group ∧ g.scope = some scope ∧ target.BelongsTo c.groups scope

variable {moments : Nat → Moment} {start s s' : Session} {l : List Operation}
variable {j : Nat} {o : Operation} {scope : Group}

theorem account_of_reaches (hw : load files c = .ok w)
    (hstart : w.directory.account start.acting.principal = .ok start.acting)
    (h : w.engine.Reaches moments start l j s) :
    w.directory.account s.acting.principal = .ok s.acting :=
  Engine.account_of_reaches hstart (fun _ _ => principal_of_account hw) h

/-- An impersonation that succeeds was allowed by the configuration. -/
theorem allowsImpersonation_of_runsAt (hw : load files c = .ok w)
    (hstart : w.directory.account start.acting.principal = .ok start.acting)
    (hrun : w.engine.RunsAt moments start l j s o (.impersonate scope))
    (hnext : w.engine.Reaches moments start l (j + 1) s') :
    s'.acting.principal = o.body ∧ s'.registry = s.registry ∧
      AllowsImpersonation c o.api s.acting s'.acting := by
  obtain ⟨t, o', p, answer, hrun', hp⟩ := Engine.reaches_succ_iff.mp hnext
  obtain ⟨rfl, rfl, rfl⟩ := hrun.unique hrun'
  obtain ⟨hmember, a, ha, rfl⟩ := Engine.invoke_impersonate hp
  obtain ⟨g, holder, hgrant, hholder, hbelongs, hbinds⟩ := exists_grant_of_load hw hrun.held
  rw [account_of_reaches hw hstart hrun.reached] at hholder
  cases hholder
  cases hbinds with
  | @impersonate name _ hkind hname hscope =>
      obtain ⟨a', ha', hin⟩ := (hasMember_scope_iff hw hscope _).mp hmember
      have haa' : a' = a := by
        have : w.engine.directory.account o.body = .ok a' := ha'
        rw [ha] at this
        cases this
        rfl
      rw [haa'] at hin
      exact ⟨principal_of_account hw ha, rfl, g, name, hgrant, hkind, hbelongs, hname, hin⟩

end

/-- What holds whenever operation number `k` of the batch of a request is run in a session. -/
structure Mediated (c : Config) (w : World) (r : Registry) (v : Visit) (start : Session)
    (l : List Operation) (k : Nat) (s : Session) : Prop where
  /-- The request itself proved the account that its batch starts as, and this account is open to
  the request. -/
  direct : ∃ (method : Method) (principal : String),
    method.verify w.authentication (v.moments 0) r v.request.credentials =
      .ok (principal, start.registry) ∧
    w.directory.account principal = .ok start.acting ∧ start.acting.principal = principal ∧
    start.acting.disableDirectAuth = false ∧
    start.acting.allows v.request.credentials.remote = true
  /-- The session acts as this account or as the one that the latest impersonation named. -/
  acting : (s.acting = start.acting ∧ w.engine.KeepsActing v.batchMoments start l 0 k) ∨
    ∃ j t o scope, j < k ∧ w.engine.Impersonates v.batchMoments start l j t o scope s.acting ∧
      s.acting.principal = o.body ∧ w.engine.KeepsActing v.batchMoments start l (j + 1) k
  /-- Every impersonation that succeeded was allowed to the account that acted when it was run, had
  its target in scope, and changed no token. -/
  allowed : ∀ j t o scope t', w.engine.RunsAt v.batchMoments start l j t o (.impersonate scope) →
    w.engine.Reaches v.batchMoments start l (j + 1) t' →
    t'.acting.principal = o.body ∧ t'.registry = t.registry ∧
      AllowsImpersonation c o.api t.acting t'.acting
  /-- An account that is not open to the request acts only after an impersonation that named it. -/
  restricted : s.acting.disableDirectAuth = true ∨
      (∃ limit, s.acting.limit = some limit ∧ ∀ address,
        v.request.credentials.remote = some address → limit.canonical ≠ address.canonical) →
    ∃ j t o scope, j < k ∧ w.engine.Impersonates v.batchMoments start l j t o scope s.acting ∧
      o.body = s.acting.principal

/-- **Complete mediation.**  In every loaded world, after any requests, every operation of a batch
that is run is run as the account that its own request authenticated as, or as the one that the
latest impersonation of the same batch named and that the configuration let the caller become. -/
theorem mediated_of_load {files : Files} {c : Config} {w : World} (hw : load files c = .ok w)
    (r : Registry) (earlier : List Visit) {v : Visit} {start : Session} {l : List Operation}
    (hopens : w.Opens (w.registryAfter r earlier) v start l) {k : Nat} {s : Session}
    {o : Operation} {p : Privilege} (hrun : w.engine.RunsAt v.batchMoments start l k s o p) :
    Mediated c w (w.registryAfter r earlier) v start l k s := by
  obtain ⟨method, principal, hverify, haccount, hdirect, hallows⟩ := hopens.openAccount_eq
  have hprincipal := principal_of_account hw haccount
  have hstart : w.directory.account start.acting.principal = .ok start.acting := by
    rw [hprincipal]
    exact haccount
  have hacting : (s.acting = start.acting ∧ w.engine.KeepsActing v.batchMoments start l 0 k) ∨
      ∃ j t o scope, j < k ∧ w.engine.Impersonates v.batchMoments start l j t o scope s.acting ∧
        s.acting.principal = o.body ∧
        w.engine.KeepsActing v.batchMoments start l (j + 1) k := by
    rcases Engine.acting_of_reaches hrun.reached with h | ⟨j, t, o', scope, hj, himp, hkeeps⟩
    · exact .inl h
    · have hbody := principal_of_account hw himp.account
      exact .inr ⟨j, t, o', scope, hj, himp, hbody, hkeeps⟩
  refine ⟨⟨method, principal, hverify, haccount, hprincipal, hdirect, hallows⟩, hacting, ?_, ?_⟩
  · intro j t o' scope t' hrun' hnext
    exact allowsImpersonation_of_runsAt hw hstart hrun' hnext
  · intro hclosed
    rcases hacting with ⟨hsame, -⟩ | ⟨j, t, o', scope, hj, himp, hbody, -⟩
    · rw [hsame] at hclosed
      rcases hclosed with hdisabled | ⟨limit, hlimit, hother⟩
      · rw [hdirect] at hdisabled
        cases hdisabled
      · obtain ⟨address, hremote, heq⟩ := (Account.allows_iff _ _).mp hallows limit hlimit
        exact absurd heq (hother address hremote)
    · exact ⟨j, t, o', scope, hj, himp, hbody.symm⟩

/-! ### An operator who acts as a robot -/

/-- A clock in 2020 and no randomness. -/
def crewMoment : Moment := ⟨⟨1600000000000000000⟩, ⟨1600000000000000000⟩, fun _ => 0⟩

/-- The token that is made without randomness. -/
def crewToken : String := Token.ofOctets (List.replicate Token.octetCount 0)

/-- The tokens when an operator has one, which may be claimed or not. -/
def crewTokens (claimed : Bool) : Registry :=
  ⟨NameMap.empty.insert crewToken ⟨crewToken, "ann", ⟨1700000000000000000⟩, claimed⟩⟩

/-- From operator to staff to robot. -/
def crewBatch : List Operation := [⟨"as-staff", "bob"⟩, ⟨"as-robot", "eve"⟩, ⟨"greet", ""⟩]

def crewVisit : Visit where
  moments := fun _ => crewMoment
  files := crewFiles
  request := ⟨"POST", Bytes.ofText "/apirequest", Batch.encode crewBatch,
    ⟨[Bytes.ofText crewToken], none, none⟩⟩

/-- The account of a principal of the crew. -/
def crewAccount (principal : String) : Account :=
  (crew.directory.account principal).toOption.getD (.ofPrincipal principal)

theorem mediated_of_crew : ∃ start s o p,
    crew.Opens (crew.registryAfter (crewTokens false) []) crewVisit start crewBatch ∧
    start.acting.principal = "ann" ∧
    crew.engine.RunsAt crewVisit.batchMoments start crewBatch 2 s o p ∧
    s.acting.principal = "eve" ∧ s.acting.disableDirectAuth = true ∧
    Mediated crewConfig crew (crew.registryAfter (crewTokens false) []) crewVisit start crewBatch 2
      s := by
  have haccount : authenticate crew.directory crew.authentication crewMoment (crewTokens false)
      crewVisit.request.credentials = (.ok (crewAccount "ann"), crewTokens true) := by
    decide +kernel
  have hopens : crew.Opens (crew.registryAfter (crewTokens false) []) crewVisit
      ⟨crewAccount "ann", crewTokens true⟩ crewBatch :=
    ⟨by decide +kernel, rfl, by decide +kernel, haccount,
      Batch.read?_encode crewBatch⟩
  have hreached : crew.engine.Reaches crewVisit.batchMoments
      ⟨crewAccount "ann", crewTokens true⟩ crewBatch 2 ⟨crewAccount "eve", crewTokens true⟩ := by
    refine ⟨by decide, ["", ""], ?_⟩
    decide +kernel
  have hsome : (crew.engine.privilegeOf (crewAccount "eve").principal "greet").toOption.isSome =
      true := by decide +kernel
  cases hheld : crew.engine.privilegeOf (crewAccount "eve").principal "greet" with
  | error err =>
      rw [hheld] at hsome
      cases hsome
  | ok p =>
      have hrun : crew.engine.RunsAt crewVisit.batchMoments ⟨crewAccount "ann", crewTokens true⟩
          crewBatch 2 ⟨crewAccount "eve", crewTokens true⟩ ⟨"greet", ""⟩ p :=
        ⟨hreached, rfl, hheld⟩
      refine ⟨_, _, _, p, hopens, ?_, hrun, ?_, ?_, ?_⟩
      · decide +kernel
      · decide +kernel
      · decide +kernel
      · exact mediated_of_load load_crew (crewTokens false) [] hopens hrun

end World
end CredentialServer
