import CredentialServer.Proofs.Directory.Flattening
import CredentialServer.Proofs.Grants.Acting
import CredentialServer.Proofs.Server.Serving

/-! # Operations that fail change nothing

An operation of an engine gives a new session or an error, so that there is no session for an error
to spoil.  A server has one registry, though, which it writes into as it goes: expired tokens are
forgotten before a new one is drawn.  `Engine.perform` runs an operation in place, and what it wrote
before an error stays written.  By `Engine.run_perform` every error comes before the first write, so
that both ways of running come to the same, and by induction whole batches do, too
(`Engine.run_performFrom`).  Main statement: `changesOnSuccess`. -/

namespace CredentialServer

/-! ### Programs in place -/

/-- A program that writes into a session as it goes: what it wrote before an error stays.  It may
also come to no end. -/
abbrev InPlace (ε α : Type) := ExceptT ε (StateT Session Option) α

namespace InPlace

variable {ε δ α β : Type}

/-- A step that only computes. -/
def compute (x : Except ε α) : InPlace ε α := ExceptT.mk (pure x)

/-- Draws tokens until one is not taken.  If all are taken, this has no end. -/
def draw (now : Moment) : InPlace ε String := do
  let s ← get
  liftM (s.registry.freshToken? now)

def grant (now : Moment) (subject : String) (lifespan : Span) : InPlace TokenError String := do
  let expires := now.tokenClock + lifespan
  if Registry.lastInstant < expires then throw .lifespanOutOfRange
  modify (fun s => { s with registry := s.registry.purge now.tokenClock })
  let token ← draw now
  modify (fun s => { s with
    registry := ⟨s.registry.entries.insert token ⟨token, subject, expires, false⟩⟩ })
  return token

/-- Goes on only under a condition. -/
def require (c : Prop) [Decidable c] (err : ε) : InPlace ε Unit := if c then return else throw err

end InPlace

open InPlace

def Privilege.perform (d : Directory) (now : Moment) (body : String) :
    Privilege → InPlace PrivilegeError String
  | .signTls _ authority subject => compute (tlsAnswer authority subject now body)
  | .signSsh _ authority subject => compute (sshAnswer authority subject now body)
  | .bootstrapAccount scope lifespan => do
    require (scope.hasMember body = true) (.outOfScope body)
    (grant now body lifespan).adapt .token
  | .impersonate scope => do
    require (scope.hasMember body = true) (.outOfScope body)
    let account ← compute ((d.account body).mapError .directory)
    modify (fun s => { s with acting := account })
    return ""
  | .constructConfiguration contents => do
    require (body = "") (.unexpectedBody .constructConfiguration)
    return contents
  | .fetchKey _ authority => do
    require (body = "") (.unexpectedBody .fetchKey)
    match Bytes.toText? authority.secret with
    | some text => return text
    | none => throw .binaryKey

def Engine.perform (e : Engine) (now : Moment) (o : Operation) : InPlace OperationError String := do
  let s ← get
  let privilege ← compute (e.privilegeOf s.acting.principal o.api)
  (privilege.perform e.directory now o.body).adapt (.failed o.api s.acting.principal)

/-! ### Running in place -/

/-- A draw has no end. -/
def TokenError.isEndless : TokenError → Bool
  | .exhausted => true
  | _ => false

def PrivilegeError.isEndless : PrivilegeError → Bool
  | .token e => e.isEndless
  | _ => false

def OperationError.isEndless : OperationError → Bool
  | .failed _ _ cause => cause.isEndless
  | _ => false

namespace InPlace

variable {ε δ α β : Type} {s : Session}

/-- What a run in place comes to if it changes what a result says, and nothing on an error. -/
def outcome (isEndless : ε → Bool) (s : Session) :
    Except ε (α × Session) → Option (Except ε α × Session)
  | .ok (a, t) => some (.ok a, t)
  | .error err => if isEndless err then none else some (.error err, s)

theorem outcome_eq_ok_iff {isEndless : ε → Bool} {result : Except ε (α × Session)} {a : α}
    {t : Session} : outcome isEndless s result = some (.ok a, t) ↔ result = .ok (a, t) := by
  cases result with
  | ok r => simp [outcome, Prod.ext_iff]
  | error err => cases h : isEndless err <;> simp [outcome, h]

theorem eq_of_outcome_eq_error {isEndless : ε → Bool} {result : Except ε (α × Session)} {err : ε}
    {t : Session} (h : outcome isEndless s result = some (.error err, t)) :
    t = s ∧ result = .error err := by
  cases result with
  | ok r => cases h
  | error err' =>
      simp only [outcome] at h
      split at h <;> cases h
      exact ⟨rfl, rfl⟩

theorem run_compute (x : Except ε α) (s : Session) : (compute x).run.run s = some (x, s) := rfl

theorem run_compute_eq_outcome {isEndless : ε → Bool} {x : Except ε α}
    (hx : ∀ err, x = .error err → isEndless err = false) :
    (compute x).run.run s = outcome isEndless s (x.map (·, s)) := by
  rw [run_compute]
  cases x with
  | ok a => rfl
  | error err => simp [Except.map, outcome, hx err rfl]

theorem run_get (s : Session) : (get : InPlace ε Session).run.run s = some (.ok s, s) := rfl

theorem run_modify (f : Session → Session) (s : Session) :
    (modify f : InPlace ε Unit).run.run s = some (.ok (), f s) := rfl

theorem run_bind (x : InPlace ε α) (f : α → InPlace ε β) (s : Session) :
    (x >>= f).run.run s = match x.run.run s with
      | none => none
      | some (.error err, t) => some (.error err, t)
      | some (.ok a, t) => (f a).run.run t := by
  change Option.bind (x.run.run s) _ = _
  rcases x.run.run s with _ | ⟨_ | _, _⟩ <;> rfl

theorem run_require_bind (c : Prop) [Decidable c] (err : ε) (x : InPlace ε α) (s : Session) :
    (require c err >>= fun _ => x).run.run s = if c then x.run.run s else some (.error err, s) := by
  unfold require
  rw [run_bind]
  by_cases hc : c
  · rw [if_pos hc, if_pos hc]
    rfl
  · rw [if_neg hc, if_neg hc]
    rfl

theorem run_draw (now : Moment) (s : Session) : (draw now : InPlace ε String).run.run s =
    (s.registry.freshToken? now).map (fun token => (.ok token, s)) := by
  unfold draw
  simp only [run_bind, run_get]
  cases s.registry.freshToken? now <;> rfl

theorem run_adapt (f : ε → δ) (x : InPlace ε α) (s : Session) :
    (x.adapt f).run.run s = (x.run.run s).map (fun r => (r.1.mapError f, r.2)) := by
  change Option.bind (x.run.run s) _ = _
  cases x.run.run s <;> rfl

theorem run_adapt_eq_outcome {isEndless : ε → Bool} (isEndless' : δ → Bool) {f : ε → δ}
    (hf : ∀ err, isEndless' (f err) = isEndless err) {x : InPlace ε α}
    {result : Except ε (α × Session)} (hx : x.run.run s = outcome isEndless s result) :
    (x.adapt f).run.run s = outcome isEndless' s (result.mapError f) := by
  rw [run_adapt, hx]
  cases result with
  | ok result => rfl
  | error err =>
      simp only [outcome, Except.mapError, hf]
      cases isEndless err <;> rfl

theorem run_grant (now : Moment) (subject : String) (lifespan : Span) :
    (grant now subject lifespan).run.run s = outcome TokenError.isEndless s
      ((s.registry.grant now subject lifespan).map (fun r => (r.1, { s with registry := r.2 }))) := by
  unfold grant Registry.grant
  by_cases hlate : Registry.lastInstant < now.tokenClock + lifespan
  · simp only [if_pos hlate]
    rfl
  · simp only [if_neg hlate, run_bind, run_modify, run_draw]
    cases (s.registry.purge now.tokenClock).freshToken? now <;> rfl

end InPlace

namespace Privilege

theorem isEndless_tlsAnswer {authority : TlsAuthority} {subject : TlsAuthority.Subject}
    {now : Moment} {body : String} {err : PrivilegeError}
    (h : tlsAnswer authority subject now body = .error err) : err.isEndless = false := by
  unfold tlsAnswer at h
  split at h <;> cases h
  rfl

theorem isEndless_sshAnswer {authority : SshAuthority} {subject : SshAuthority.Subject}
    {now : Moment} {body : String} {err : PrivilegeError}
    (h : sshAnswer authority subject now body = .error err) : err.isEndless = false := by
  unfold sshAnswer at h
  split at h <;> cases h
  rfl

/-- A privilege that is run in place changes what it gives, and nothing on an error. -/
theorem run_perform (d : Directory) (now : Moment) (s : Session) (body : String)
    (p : Privilege) : (p.perform d now body).run.run s =
      outcome PrivilegeError.isEndless s (p.invoke d now s body) := by
  cases p with
  | signTls name authority subject =>
      exact run_compute_eq_outcome fun err => isEndless_tlsAnswer
  | signSsh name authority subject =>
      exact run_compute_eq_outcome fun err => isEndless_sshAnswer
  | bootstrapAccount scope lifespan =>
      simp only [perform, invoke, run_require_bind]
      split
      · rw [run_adapt_eq_outcome PrivilegeError.isEndless (fun _ => rfl)
          (run_grant now body lifespan)]
        cases s.registry.grant now body lifespan <;> rfl
      · rfl
  | impersonate scope =>
      simp only [perform, invoke, run_require_bind]
      split
      · rw [run_bind, run_compute]
        cases d.account body <;> rfl
      · rfl
  | constructConfiguration contents =>
      simp only [perform, invoke, run_require_bind]
      split <;> rfl
  | fetchKey name authority =>
      simp only [perform, invoke, run_require_bind]
      split
      · cases Bytes.toText? authority.secret <;> rfl
      · rfl

end Privilege

namespace Engine

theorem isEndless_privilegeOf {e : Engine} {principal api : String} {err : OperationError}
    (h : e.privilegeOf principal api = .error err) : err.isEndless = false := by
  unfold privilegeOf at h
  split at h
  · cases h
    rfl
  · split at h <;> cases h
    rfl

/-- An operation that is run in place changes what it gives, and nothing on an error. -/
theorem run_perform (e : Engine) (now : Moment) (s : Session) (o : Operation) :
    (e.perform now o).run.run s = outcome OperationError.isEndless s (e.invoke now s o) := by
  simp only [perform, run_bind, run_get, run_compute, invoke]
  cases hheld : e.privilegeOf s.acting.principal o.api with
  | error err => simp only [outcome, isEndless_privilegeOf hheld, Bool.false_eq_true, if_false]
  | ok p =>
      simp only
      rw [run_adapt_eq_outcome OperationError.isEndless (fun _ => rfl)
        (p.run_perform e.directory now s o.body)]
      cases p.invoke e.directory now s o.body <;> rfl

/-- Runs a batch in place, whose first operation is number `n`. -/
def performFrom (e : Engine) (moments : Nat → Moment) :
    Nat → List Operation → InPlace OperationError (List String)
  | _, [] => return []
  | n, o :: rest => do
    let answer ← e.perform (moments n) o
    let answers ← performFrom e moments (n + 1) rest
    return answer :: answers

/-- A batch that is run in place leaves the session that its operations before an error made. -/
theorem run_performFrom (e : Engine) (moments : Nat → Moment) (l : List Operation) (n : Nat)
    (s : Session) : (e.performFrom moments n l).run.run s =
      match e.runFrom moments n s l with
      | (.ok answers, t) => some (.ok answers, t)
      | (.error err, t) => if err.isEndless then none else some (.error err, t) := by
  induction l generalizing n s with
  | nil => rfl
  | cons o rest ih =>
      simp only [performFrom, runFrom, run_bind, run_perform]
      cases e.invoke (moments n) s o with
      | error err => cases hends : err.isEndless <;> simp [outcome, hends]
      | ok result =>
          obtain ⟨answer, t⟩ := result
          simp only [outcome, ih]
          rcases e.runFrom moments (n + 1) t rest with ⟨err | answers, u⟩
          · cases hends : err.isEndless <;> simp [hends]
          · rfl

end Engine

/-! ### Runs that end -/

theorem Registry.grant_ne_exhausted {r : Registry} (hroom : r.size < Bytes.limit Token.octetCount)
    (now : Moment) (subject : String) (lifespan : Span) :
    r.grant now subject lifespan ≠ .error .exhausted := by
  intro h
  by_cases hshort : now.tokenClock + lifespan ≤ lastInstant
  · obtain ⟨result, hresult⟩ := (exists_grant_iff hroom now subject lifespan).mpr hshort
    rw [hresult] at h
    cases h
  · have hlate : lastInstant < now.tokenClock + lifespan := Int.not_le.mp hshort
    unfold grant at h
    rw [if_pos hlate] at h
    cases h

theorem Privilege.exists_perform {s : Session}
    (hroom : s.registry.size < Bytes.limit Token.octetCount) (d : Directory) (now : Moment)
    (body : String) (p : Privilege) :
    ∃ result t, (p.perform d now body).run.run s = some (result, t) := by
  cases p with
  | signTls name authority subject => exact ⟨_, _, rfl⟩
  | signSsh name authority subject => exact ⟨_, _, rfl⟩
  | bootstrapAccount scope lifespan =>
      simp only [perform, run_require_bind]
      split
      · rw [run_adapt, run_grant]
        cases hgrant : s.registry.grant now body lifespan with
        | ok result => exact ⟨_, _, rfl⟩
        | error err =>
            cases err with
            | exhausted => exact absurd hgrant (Registry.grant_ne_exhausted hroom now body lifespan)
            | _ => exact ⟨_, _, rfl⟩
      · exact ⟨_, _, rfl⟩
  | impersonate scope =>
      simp only [perform, run_require_bind]
      split
      · rw [run_bind, run_compute]
        cases d.account body <;> exact ⟨_, _, rfl⟩
      · exact ⟨_, _, rfl⟩
  | constructConfiguration contents =>
      simp only [perform, run_require_bind]
      split <;> exact ⟨_, _, rfl⟩
  | fetchKey name authority =>
      simp only [perform, run_require_bind]
      split
      · cases Bytes.toText? authority.secret <;> exact ⟨_, _, rfl⟩
      · exact ⟨_, _, rfl⟩

theorem Engine.exists_perform {s : Session}
    (hroom : s.registry.size < Bytes.limit Token.octetCount) (e : Engine) (now : Moment)
    (o : Operation) : ∃ result t, (e.perform now o).run.run s = some (result, t) := by
  simp only [perform, run_bind, run_get, run_compute]
  cases e.privilegeOf s.acting.principal o.api with
  | error err => exact ⟨_, _, rfl⟩
  | ok p =>
      obtain ⟨result, t, hp⟩ := p.exists_perform hroom e.directory now o.body
      simp only [run_adapt, hp]
      exact ⟨_, _, rfl⟩

/-! ### What changes -/

/-- A registry forgets what has expired, and gets one new token, which is not claimed. -/
structure Registry.Gains (r r' : Registry) (now : Instant) (token subject : String)
    (lifespan : Span) : Prop where
  /-- The token is not one of those that are kept. -/
  fresh : (r.entries.find? token).filter (fun e => !e.hasExpired now) = none
  find?_eq : ∀ other, r'.entries.find? other =
    if other = token then some ⟨token, subject, now + lifespan, false⟩
    else (r.entries.find? other).filter (fun e => !e.hasExpired now)

theorem Registry.gains_of_grant {r r' : Registry} {now : Moment} {token subject : String}
    {lifespan : Span} (h : r.grant now subject lifespan = .ok (token, r')) :
    r.Gains r' now.tokenClock token subject lifespan := by
  obtain ⟨-, hfresh, -, hentries⟩ := grant_eq_ok h
  constructor
  · rw [← find?_purge, hfresh]
  · intro other
    rw [hentries, NameMap.find?_insert, find?_purge]

namespace Privilege

/-- What a privilege changes in a session when it answers. -/
structure Changes (p : Privilege) (d : Directory) (now : Moment) (body answer : String)
    (s t : Session) : Prop where
  acting_eq : p.kind ≠ .impersonate → t.acting = s.acting
  acting : p.kind = .impersonate → d.account body = .ok t.acting ∧ t.acting.principal = body
  registry_eq : p.kind ≠ .bootstrapAccount → t.registry = s.registry
  registry : ∀ scope lifespan, p = .bootstrapAccount scope lifespan →
    s.registry.Gains t.registry now.tokenClock answer body lifespan

/-- A privilege to have tokens made answers with a token that was granted. -/
theorem invoke_bootstrapAccount {d : Directory} {scope : Group} {lifespan : Span} {now : Moment}
    {s t : Session} {body answer : String}
    (h : (bootstrapAccount scope lifespan).invoke d now s body = .ok (answer, t)) :
    scope.hasMember body = true ∧ ∃ r, s.registry.grant now body lifespan = .ok (answer, r) ∧
      t = { s with registry := r } := by
  simp only [invoke] at h
  split at h
  · next hmember =>
    split at h
    · next token r hgrant =>
      cases h
      exact ⟨hmember, r, hgrant, rfl⟩
    · cases h
  · cases h

theorem changes_of_invoke {p : Privilege} {d : Directory} {now : Moment} {body answer : String}
    {s t : Session} (h : p.invoke d now s body = .ok (answer, t)) :
    p.Changes d now body answer s t where
  acting_eq := Engine.acting_eq_of_kind_ne h
  acting := by
    intro hkind
    obtain ⟨scope, rfl⟩ := Engine.eq_impersonate_of_kind hkind
    obtain ⟨-, a, ha, rfl⟩ := Engine.invoke_impersonate h
    exact ⟨ha, (Directory.account_eq_ok_iff.mp ha).2⟩
  registry_eq := by
    intro hkind
    rcases registry_invoke h with hsame | ⟨scope, lifespan, rfl, -, -⟩
    · exact hsame
    · exact absurd rfl hkind
  registry := by
    rintro scope lifespan rfl
    obtain ⟨-, r, hgrant, rfl⟩ := invoke_bootstrapAccount h
    exact Registry.gains_of_grant hgrant

end Privilege

/-! ### Operations -/

/-- An operation changes a session only if it succeeds, and then only what its privilege is for. -/
structure Engine.ChangesOnSuccess (e : Engine) (now : Moment) (s : Session) (o : Operation) :
    Prop where
  /-- Run in place, an operation answers as it does otherwise, and leaves the same session. -/
  answers_iff : ∀ answer t, (e.perform now o).run.run s = some (.ok answer, t) ↔
    e.invoke now s o = .ok (answer, t)
  fails : ∀ err t, (e.perform now o).run.run s = some (.error err, t) →
    t = s ∧ e.invoke now s o = .error err
  ends : s.registry.size < Bytes.limit Token.octetCount →
    ∃ result t, (e.perform now o).run.run s = some (result, t)
  changes : ∀ answer t, e.invoke now s o = .ok (answer, t) →
    ∃ p, e.privilegeOf s.acting.principal o.api = .ok p ∧
      p.Changes e.directory now o.body answer s t

/-- **An operation that fails changes nothing**, for every engine, moment, session and operation. -/
theorem Engine.changesOnSuccess (e : Engine) (now : Moment) (s : Session) (o : Operation) :
    e.ChangesOnSuccess now s o := by
  constructor
  case answers_iff =>
    intro answer t
    rw [run_perform, outcome_eq_ok_iff]
  case fails =>
    intro err t h
    rw [run_perform] at h
    exact eq_of_outcome_eq_error h
  case ends => exact fun hroom => exists_perform hroom e now o
  case changes =>
    intro answer t h
    obtain ⟨p, hheld, hp⟩ := invoke_eq_ok_iff.mp h
    exact ⟨p, hheld, Privilege.changes_of_invoke hp⟩

end CredentialServer
