import CredentialServer.Proofs.Authority.Certifying
import CredentialServer.Proofs.Server.Identity

/-! # When a server serves its members

The start of a server settles much of what an operation needs: accounts, groups, authorities,
templates, and that lifespans are not zero.  What it leaves open is collected in `Privilege.Serves`,
and a good request of a member fails just if this does not hold when it comes.  A check at the start
could have covered most of it (`Privilege.Endures`).  As it is, some servers start that cannot serve
some of their grants, ever (`invitation_refused`).  Main statement: `serving_of_load`. -/

namespace CredentialServer

/-! ### What a privilege needs -/

namespace Privilege

/-- A body is good for a privilege.  A request for a certificate is good if a certificate can be
made for it at some time for somebody. -/
def Suits (body : String) : Privilege → Prop
  | .signTls _ authority _ =>
    ∃ now serial subject certificate, authority.issue now serial body subject = .ok certificate
  | .signSsh .. => SshAuthority.StartsWithKey body
  | .bootstrapAccount scope _ | .impersonate scope => scope.hasMember body = true
  | .constructConfiguration _ | .fetchKey .. => body = ""

/-- What a privilege needs at a moment besides a good body. -/
def Serves (now : Moment) (body : String) : Privilege → Prop
  | .signTls _ _ subject => TlsAuthority.Issues subject now.signingClock
  | .signSsh _ authority subject =>
    authority.Certifies subject now.signingClock now.random (SshAuthority.leadingKeys body)
  | .bootstrapAccount _ lifespan => now.tokenClock + lifespan ≤ Registry.lastInstant
  | .impersonate _ | .constructConfiguration _ => True
  | .fetchKey _ authority => ∃ text, Bytes.toText? authority.secret = some text

/-- What does for a privilege to serve until an instant.  None of it is about a request. -/
def Endures (last : Instant) : Privilege → Prop
  | .signTls _ _ subject => TlsAuthority.Issues subject last
  | .signSsh _ authority subject => nanosPerSecond ≤ subject.lifespan.toNanos ∧
    last.second.toNat + subject.lifespan.seconds < UInt64.size / 2 ∧ authority.key.IsSteady
  | .bootstrapAccount _ lifespan => last + lifespan ≤ Registry.lastInstant
  | .impersonate _ | .constructConfiguration _ => True
  | .fetchKey _ authority => ∃ text, Bytes.toText? authority.secret = some text

/-- What the start of a server has settled about a privilege. -/
def IsSettled (d : Directory) : Privilege → Prop
  | .signTls _ authority _ => authority.IsLoaded
  | .signSsh _ _ subject => subject.principals ≠ []
  | .impersonate scope =>
    ∀ principal, scope.hasMember principal = true → ∃ a, d.account principal = .ok a
  | _ => True

end Privilege

/-- Both clocks show an instant between two others. -/
structure Moment.Between (first last : Instant) (now : Moment) : Prop where
  first_le_token : first ≤ now.tokenClock
  token_le_last : now.tokenClock ≤ last
  first_le_signing : first ≤ now.signingClock
  signing_le_last : now.signingClock ≤ last

/-! ### Tokens -/

namespace Registry

theorem size_purge_le (r : Registry) (now : Instant) : (r.purge now).size ≤ r.size :=
  List.length_filter_le _ _

/-- As long as there are tokens left, only the lifespan can keep one from being granted. -/
theorem exists_grant_iff {r : Registry} (hroom : r.size < Bytes.limit Token.octetCount)
    (now : Moment) (subject : String) (lifespan : Span) :
    (∃ result, r.grant now subject lifespan = .ok result) ↔
      now.tokenClock + lifespan ≤ lastInstant := by
  constructor
  · rintro ⟨⟨token, r'⟩, h⟩
    exact (grant_eq_ok h).1
  · intro hshort
    have hpurged : (r.purge now.tokenClock).size < Bytes.limit Token.octetCount :=
      Nat.lt_of_le_of_lt (r.size_purge_le now.tokenClock) hroom
    obtain ⟨token, htoken⟩ := Option.isSome_iff_exists.mp (isSome_freshToken? hpurged now)
    have hnot : ¬ lastInstant < now.tokenClock + lifespan := Int.not_lt.mpr hshort
    unfold grant
    simp only [if_neg hnot, htoken]
    exact ⟨_, rfl⟩

end Registry

/-! ### Running a privilege -/

namespace Privilege

variable {d : Directory} {now : Moment} {s : Session} {body : String}

theorem exists_signTls_iff {name : String} {authority : TlsAuthority}
    {subject : TlsAuthority.Subject} (hloaded : authority.IsLoaded)
    (hsuits : (signTls name authority subject).Suits body) :
    (∃ r, (signTls name authority subject).invoke d now s body = .ok r) ↔
      TlsAuthority.Issues subject now.signingClock := by
  obtain ⟨_, _, _, _, hissue⟩ := hsuits
  obtain ⟨key, -, hkey, -⟩ := TlsAuthority.issue_eq_ok_iff.mp hissue
  rw [← hloaded.exists_issue_iff hkey _ (TlsAuthority.serialOf now.random)]
  simp only [invoke, tlsAnswer]
  cases authority.issue now.signingClock (TlsAuthority.serialOf now.random) body subject with
  | error e => simp [Except.map]
  | ok c => simp [Except.map]

theorem exists_signSsh_iff {name : String} {authority : SshAuthority}
    {subject : SshAuthority.Subject} (hprincipals : subject.principals ≠ [])
    (hsuits : (signSsh name authority subject).Suits body) (hnow : 0 ≤ now.signingClock.nanos) :
    (∃ r, (signSsh name authority subject).invoke d now s body = .ok r) ↔
      authority.Certifies subject now.signingClock now.random (SshAuthority.leadingKeys body) := by
  have hkeys := SshAuthority.startsWithKey_iff.mp hsuits
  rw [← SshAuthority.exists_issue_iff hkeys hprincipals hnow]
  simp only [invoke, sshAnswer]
  cases authority.issue now.signingClock now.random body subject with
  | error e => simp [Except.map]
  | ok l => simp [Except.map]

theorem exists_bootstrapAccount_iff {scope : Group} {lifespan : Span}
    (hsuits : (bootstrapAccount scope lifespan).Suits body)
    (hroom : s.registry.size < Bytes.limit Token.octetCount) :
    (∃ r, (bootstrapAccount scope lifespan).invoke d now s body = .ok r) ↔
      now.tokenClock + lifespan ≤ Registry.lastInstant := by
  rw [← Registry.exists_grant_iff hroom now body]
  have hscope : scope.hasMember body = true := hsuits
  simp only [invoke, hscope, if_true]
  cases s.registry.grant now body lifespan with
  | error e => simp
  | ok result => simp

theorem exists_impersonate {scope : Group} (hsettled : (impersonate scope).IsSettled d)
    (hsuits : (impersonate scope).Suits body) :
    ∃ r, (impersonate scope).invoke d now s body = .ok r := by
  have hscope : scope.hasMember body = true := hsuits
  obtain ⟨a, ha⟩ := hsettled body hscope
  simp only [invoke, hscope, if_true, ha]
  exact ⟨_, rfl⟩

theorem exists_fetchKey_iff {name : String} {authority : StaticAuthority}
    (hsuits : (fetchKey name authority).Suits body) :
    (∃ r, (fetchKey name authority).invoke d now s body = .ok r) ↔
      ∃ text, Bytes.toText? authority.secret = some text := by
  have hempty : body = "" := hsuits
  simp only [invoke, if_pos hempty]
  cases Bytes.toText? authority.secret with
  | none => simp
  | some text => simp

/-- A settled privilege that is run on a good body succeeds just if it serves at that moment. -/
theorem exists_invoke_iff {p : Privilege} (hsettled : p.IsSettled d) (hsuits : p.Suits body)
    (hnow : 0 ≤ now.signingClock.nanos)
    (hroom : s.registry.size < Bytes.limit Token.octetCount) :
    (∃ r, p.invoke d now s body = .ok r) ↔ p.Serves now body := by
  cases p with
  | signTls name authority subject => exact exists_signTls_iff hsettled hsuits
  | signSsh name authority subject => exact exists_signSsh_iff hsettled hsuits hnow
  | bootstrapAccount scope lifespan => exact exists_bootstrapAccount_iff hsuits hroom
  | impersonate scope => exact iff_of_true (exists_impersonate hsettled hsuits) trivial
  | constructConfiguration contents =>
      have hempty : body = "" := hsuits
      refine iff_of_true ⟨(contents, s), ?_⟩ trivial
      simp only [invoke, if_pos hempty]
  | fetchKey name authority => exact exists_fetchKey_iff hsuits

theorem Endures.serves {p : Privilege} {last : Instant} (h : p.Endures last)
    (htoken : now.tokenClock ≤ last) (hsigning : now.signingClock ≤ last) :
    p.Serves now body := by
  cases p with
  | signTls name authority subject =>
      obtain ⟨hshort, hwritten⟩ := h
      refine ⟨?_, hwritten⟩
      rw [Instant.le_def, Instant.nanos_add] at hshort ⊢
      rw [Instant.le_def] at hsigning
      omega
  | signSsh name authority subject =>
      obtain ⟨hlong, hshort, hsteady⟩ := h
      refine ⟨hlong, ?_, fun s _ => hsteady.exists_sign s.signedPart⟩
      have hsecond : now.signingClock.second ≤ last.second :=
        Instant.second_le_second hsigning
      omega
  | bootstrapAccount scope lifespan =>
      have hshort : last + lifespan ≤ Registry.lastInstant := h
      show now.tokenClock + lifespan ≤ Registry.lastInstant
      rw [Instant.le_def, Instant.nanos_add] at hshort ⊢
      rw [Instant.le_def] at htoken
      omega
  | impersonate scope => trivial
  | constructConfiguration contents => trivial
  | fetchKey name authority => exact h

end Privilege

namespace World

/-! ### What a loaded world has settled -/

section
variable {files : Files} {c : Config} {w : World}

theorem isSettled_of_binds (hw : load files c = .ok w) {g : Grant} {vars : Variables}
    {p : Privilege} (h : g.Binds w.directory w.authorities vars p) : p.IsSettled w.directory := by
  cases h with
  | signTls _ _ hauthority => exact isLoaded_of_find? hw hauthority
  | signSsh _ _ _ _ _ _ _ _ _ hnonempty hprincipals =>
      have hlength := length_substituteAll hprincipals
      rintro rfl
      rw [List.length_nil, eq_comm, List.length_eq_zero_iff] at hlength
      exact hnonempty hlength
  | bootstrapAccount => trivial
  | impersonate _ _ hscope =>
      intro principal hmember
      obtain ⟨a, ha, -⟩ := (hasMember_scope_iff hw hscope principal).mp hmember
      exact ⟨a, ha⟩
  | constructConfiguration => trivial
  | fetchKey => trivial

def epoch : Instant := .ofSeconds 0

/-- The first instant of 2100, which is as far as anybody looks ahead. -/
def horizon : Instant := .ofSeconds 4102444800

/-- When an account is served that holds a privilege under a grant.  There are fewer tokens than can
be told apart. -/
structure Serving (w : World) (api : String) (a : Account) (p : Privilege) : Prop where
  /-- An operation with a good body succeeds just if the privilege serves at that moment. -/
  succeeds : ∀ now registry body, p.Suits body → epoch ≤ now.signingClock →
    registry.size < Bytes.limit Token.octetCount →
    ((∃ r, w.engine.invoke now ⟨a, registry⟩ ⟨api, body⟩ = .ok r) ↔ p.Serves now body)
  /-- If the privilege endures until 2100, every operation with a good body succeeds until then. -/
  lasting : p.Endures horizon → ∀ now registry body, p.Suits body →
    now.Between epoch horizon → registry.size < Bytes.limit Token.octetCount →
    ∃ r, w.engine.invoke now ⟨a, registry⟩ ⟨api, body⟩ = .ok r

/-- **When a server serves its members**, for every configuration that can be loaded, every grant
and every account of its group. -/
theorem serving_of_load (hw : load files c = .ok w) {api : String} {g : Grant}
    (hg : c.grants.find? api = some g) {principal : String} {a : Account}
    (ha : w.directory.account principal = .ok a) (hmember : a.BelongsTo c.groups g.group) :
    ∃ p, g.Binds w.directory w.authorities a.metadata p ∧ w.Serving api a p := by
  obtain ⟨p, hp, hbinds⟩ := privilegeOf_of_load hw hg ha hmember
  have hprincipal := principal_of_account hw ha
  have hsettled := isSettled_of_binds hw hbinds
  have hsucceeds : ∀ now registry body, p.Suits body → epoch ≤ now.signingClock →
      registry.size < Bytes.limit Token.octetCount →
      ((∃ r, w.engine.invoke now ⟨a, registry⟩ ⟨api, body⟩ = .ok r) ↔ p.Serves now body) := by
    intro now registry body hsuits hnow hroom
    rw [← Privilege.exists_invoke_iff (s := ⟨a, registry⟩) hsettled hsuits hnow hroom]
    simp only [Engine.invoke_eq_ok_iff, hprincipal, hp, Except.ok.injEq, exists_eq_left']
    rfl
  refine ⟨p, hbinds, hsucceeds, ?_⟩
  intro hendures now registry body hsuits hnow hroom
  rw [hsucceeds now registry body hsuits hnow.first_le_signing hroom]
  exact hendures.serves hnow.token_le_last hnow.signing_le_last

end

/-! ### Invitations -/

/-- One of the staff as an account. -/
def crewGuest : Account where
  principal := "bob"
  group := some "staff"
  disableDirectAuth := false
  limit := none
  metadata := NameMap.ofList [("principal", "bob")]

/-- A grant of invitations, which stand for some time. -/
def invitation (lifespan : String) : Grant := { (default : Grant) with
  group := "operators", privilege := "bootstrap-account", scope := some "staff",
  lifespan := some lifespan }

section
variable {files : Files} {grants : NameMap Grant} {w : World}

theorem account_crewOperator (hw : load files (configOf crewGroups crewAccounts grants) = .ok w) :
    w.directory.account "ann" = .ok crewOperator := by
  refine ((flattens_load hw).account_iff _ _).mpr ⟨rfl, _, List.mem_cons_self, ?_⟩
  decide +kernel

theorem account_crewGuest (hw : load files (configOf crewGroups crewAccounts grants) = .ok w) :
    w.directory.account "bob" = .ok crewGuest := by
  refine ((flattens_load hw).account_iff _ _).mpr
    ⟨rfl, _, List.mem_cons_of_mem _ List.mem_cons_self, ?_⟩
  decide +kernel

theorem belongsTo_crewOperator : crewOperator.BelongsTo crewGroups "operators" :=
  ⟨"operators", rfl, .refl _⟩

theorem belongsTo_crewGuest : crewGuest.BelongsTo crewGroups "staff" :=
  ⟨"staff", rfl, .refl _⟩

/-- Operators may invite staff for as long as their grant says. -/
theorem exists_invitation (hw : load files (configOf crewGroups crewAccounts grants) = .ok w)
    {lifespan : String} {span : Span} (hspan : Lifespan.parse lifespan = .ok span)
    {vars : Variables} {p : Privilege}
    (h : (invitation lifespan).Binds w.directory w.authorities vars p) :
    ∃ scope, p = .bootstrapAccount scope span ∧ scope.hasMember "bob" = true := by
  cases h with
  | bootstrapAccount _ hname hscope hlifespan hparse _ =>
      cases hname
      cases hlifespan
      rw [hspan] at hparse
      cases hparse
      exact ⟨_, rfl, (hasMember_scope_iff hw hscope _).mpr
        ⟨crewGuest, account_crewGuest hw, belongsTo_crewGuest⟩⟩
  | signTls hkind | signSsh hkind | impersonate hkind | constructConfiguration hkind
  | fetchKey hkind => simp [invitation] at hkind

end

theorem serving_of_crew : (∃ p, crew.Serving "invite" crewOperator p) ∧
    ∀ now registry, now.Between epoch horizon → registry.size < Bytes.limit Token.octetCount →
      ∃ r, crew.engine.invoke now ⟨crewOperator, registry⟩ ⟨"invite", "bob"⟩ = .ok r := by
  have hspan : Lifespan.parse "1h" = .ok ⟨3600, 0, by decide, by decide⟩ := by decide +kernel
  have hgrant : crewConfig.grants.find? "invite" = some (invitation "1h") := by decide +kernel
  obtain ⟨p, hbinds, hserving⟩ := serving_of_load load_crew hgrant
    (account_crewOperator load_crew) belongsTo_crewOperator
  refine ⟨⟨p, hserving⟩, ?_⟩
  intro now registry hnow hroom
  obtain ⟨scope, rfl, hscope⟩ := exists_invitation load_crew hspan hbinds
  refine hserving.lasting ?_ now registry "bob" hscope hnow hroom
  show horizon + _ ≤ Registry.lastInstant
  decide

/-- The configuration of a crew whose invitations stand for longer than there are dates. -/
def eternalConfig : Config :=
  configOf crewGroups crewAccounts (NameMap.ofList [("invite", invitation "300000years")])

/-- What a server with this configuration answers from. -/
def eternalCrew : World := worldOf crewAuthority eternalConfig

theorem load_eternalCrew : load crewFiles eternalConfig = .ok eternalCrew := by
  refine load_worldOf load_crewAuthority ?_
  decide +kernel

/-- **A server may start and never serve a grant.**  An operator asks for a guest who is in scope,
and whatever the time is and whatever tokens there are, the lifespan that the grant names is
refused. -/
theorem invitation_refused : load crewFiles eternalConfig = .ok eternalCrew ∧
    eternalConfig.grants.find? "invite" = some (invitation "300000years") ∧
    eternalCrew.directory.account crewOperator.principal = .ok crewOperator ∧
    crewOperator.BelongsTo eternalConfig.groups "operators" ∧
    ∃ p, eternalCrew.engine.privilegeOf crewOperator.principal "invite" = .ok p ∧ p.Suits "bob" ∧
      ∀ now registry, epoch ≤ now.tokenClock →
        eternalCrew.engine.invoke now ⟨crewOperator, registry⟩ ⟨"invite", "bob"⟩ =
          .error (.failed "invite" "ann" (.token .lifespanOutOfRange)) := by
  have hspan : Lifespan.parse "300000years" = .ok ⟨9467280000000, 0, by decide, by decide⟩ := by
    decide +kernel
  have hgrant : eternalConfig.grants.find? "invite" = some (invitation "300000years") := by
    decide +kernel
  obtain ⟨p, hp, hbinds⟩ := privilegeOf_of_load load_eternalCrew hgrant
    (account_crewOperator load_eternalCrew) belongsTo_crewOperator
  obtain ⟨scope, rfl, hscope⟩ := exists_invitation load_eternalCrew hspan hbinds
  refine ⟨load_eternalCrew, hgrant, account_crewOperator load_eternalCrew,
    belongsTo_crewOperator, _, hp, hscope, ?_⟩
  intro now registry hnow
  have hlate : Registry.lastInstant <
      now.tokenClock + (⟨9467280000000, 0, by decide, by decide⟩ : Span) := by
    have hepoch : 0 ≤ now.tokenClock.nanos := hnow
    rw [Instant.lt_def, Instant.nanos_add]
    simp only [Registry.lastInstant, Span.toNanos, nanosPerSecond]
    omega
  have hgranted : registry.grant now "bob" ⟨9467280000000, 0, by decide, by decide⟩ =
      .error .lifespanOutOfRange := if_pos hlate
  have hheld : eternalCrew.engine.privilegeOf "ann" "invite" = .ok _ := hp
  unfold Engine.invoke
  simp only [show crewOperator.principal = "ann" from rfl, hheld, Privilege.invoke, hscope, if_true,
    hgranted]

end World
end CredentialServer
