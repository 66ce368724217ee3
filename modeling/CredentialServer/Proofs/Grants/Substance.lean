import CredentialServer.Proofs.Authority.Leading
import CredentialServer.Proofs.Grants.Defects
import CredentialServer.Proofs.Server.Atomicity

/-! # Grants that amount to something

Parameters are asked for before they are expanded, each in a way of its own, and what is issued
comes from what they expand to.  No expansion loses a text: the values of variables are not empty,
so only the empty template expands to nothing (`substitute_eq_empty_iff`).  Hence nobody holds a
privilege without a name, without principals, without contents or without a length of time
(`Privilege.IsSubstantial`).  A certificate without principals would be good for all of them, and a
token that lasts no time could never be claimed.  Main statement: `isSubstantial_of_compile`. -/

namespace CredentialServer

/-! ### Expansion loses no text -/

section
variable {vars : Variables}

theorem Variables.ne_nil_of_value? {var found : List Char} (h : vars.value? var = some found) :
    found ≠ [] := by
  obtain ⟨value, hvalue, rfl⟩ := value?_eq_some_iff.mp h
  exact mt String.toList_eq_nil_iff.mp hvalue.2

theorem Template.fillTail?_eq_nil_iff {l : List (List Char × List Char)} :
    fillTail? vars l = some [] ↔ l = [] := by
  constructor
  · intro h
    cases l with
    | nil => rfl
    | cons p l =>
        obtain ⟨var, text⟩ := p
        unfold fillTail? at h
        split at h
        · next found rest hfound hrest =>
          rw [Option.some.injEq, List.append_eq_nil_iff, List.append_eq_nil_iff] at h
          exact absurd h.1.1 (Variables.ne_nil_of_value? hfound)
        · cases h
  · rintro rfl
    rfl

/-- Only the empty template expands to nothing. -/
theorem substitute_eq_empty_iff {within : String} :
    substitute vars within = .ok "" ↔ within = "" := by
  constructor
  · intro h
    obtain ⟨⟨head, tail⟩, -, htext, hfill⟩ := exists_of_substitute h
    obtain ⟨rest, hrest, hvalue⟩ := Option.map_eq_some_iff.mp hfill
    obtain ⟨rfl, rfl⟩ := List.append_eq_nil_iff.mp hvalue
    obtain rfl := Template.fillTail?_eq_nil_iff.mp hrest
    exact String.toList_eq_nil_iff.mp htext.symm
  · rintro rfl
    rfl

theorem ne_empty_of_substitute {within text : String} (h : substitute vars within = .ok text)
    (hwithin : within ≠ "") : text ≠ "" := by
  rintro rfl
  exact hwithin (substitute_eq_empty_iff.mp h)

end

/-! ### Privileges -/

namespace Privilege

/-- The names and contents of a privilege are not empty, and what it issues lasts. -/
def IsSubstantial : Privilege → Prop
  | .signTls _ _ subject => subject.commonName ≠ "" ∧ 0 < subject.lifespan.toNanos
  | .signSsh _ _ subject =>
    subject.keyId ≠ "" ∧ subject.principals ≠ [] ∧ 0 < subject.lifespan.toNanos
  | .bootstrapAccount _ lifespan => 0 < lifespan.toNanos
  | .constructConfiguration contents => contents ≠ ""
  | .impersonate _ | .fetchKey .. => True

end Privilege

section
variable {d : Directory} {authorities : Authorities} {g : Grant} {vars : Variables}
variable {p : Privilege}

theorem ne_empty_of_given {s : Option String} {text : String}
    (h : ∃ text, s = some text ∧ text ≠ "") (hs : s = some text) : text ≠ "" := by
  obtain ⟨_, rfl, hne⟩ := h
  cases hs
  exact hne

/-- What is given is not empty, and stays so when it is expanded. -/
theorem isSubstantial_of_binds (hrequired : ∀ q ∈ p.kind.required, g.Gives q)
    (h : g.Binds d authorities vars p) : p.IsSubstantial := by
  cases h with
  | signTls _ _ _ _ _ hpositive htemplate hcommonName _ =>
      have hmem : .commonName ∈ PrivilegeKind.signTls.required := by decide
      have htext := ne_empty_of_given (hrequired .commonName hmem) htemplate
      exact ⟨ne_empty_of_substitute hcommonName htext, hpositive⟩
  | signSsh _ _ _ _ _ hpositive htemplate hkeyId _ hnonempty hprincipals =>
      have hmem : .commonName ∈ PrivilegeKind.signSsh.required := by decide
      have htext := ne_empty_of_given (hrequired .commonName hmem) htemplate
      refine ⟨ne_empty_of_substitute hkeyId htext, ?_, hpositive⟩
      have hlength := length_substituteAll hprincipals
      rwa [← List.length_pos_iff, ← hlength, List.length_pos_iff] at hnonempty
  | bootstrapAccount _ _ _ _ _ hpositive => exact hpositive
  | impersonate => trivial
  | constructConfiguration _ htemplate hcontents =>
      have hmem : .contents ∈ PrivilegeKind.constructConfiguration.required := by decide
      have htext := ne_empty_of_given (hrequired .contents hmem) htemplate
      exact ne_empty_of_substitute hcontents htext
  | fetchKey => trivial

theorem isSubstantial_of_compileGrant {bound : BoundGrant}
    (h : compileGrant d authorities g = .ok bound) {principal : String}
    (hp : bound.holders.find? principal = some p) : p.IsSubstantial := by
  obtain ⟨k, -, -, hk, hcheck, -⟩ := compileGrant_eq_ok h
  obtain ⟨a, -, hbinds⟩ := (implements_of_compileGrant h).holds principal p hp
  have hp := (hbinds p).mpr rfl
  have hkind : p.kind = k := by
    rw [hp.text_kind, PrivilegeKind.ofText?_text] at hk
    exact Option.some.inj hk
  subst hkind
  exact isSubstantial_of_binds (checkParameters_iff_gives.mp hcheck).2.1 hp

end

/-! ### What is issued -/

/-- A token that lasts any time can be claimed when it is granted. -/
theorem Registry.exists_claim_of_grant {r s : Registry} {now : Moment} {subject token : String}
    {lifespan : Span} (h : r.grant now subject lifespan = .ok (token, s))
    (hpositive : 0 < lifespan.toNanos) :
    ∃ t, s.claim now.tokenClock token = .ok (subject, t) := by
  obtain ⟨-, -, hform, hs⟩ := grant_eq_ok h
  have hfind : s.entries.find? token =
      some ⟨token, subject, now.tokenClock + lifespan, false⟩ := by
    rw [hs, NameMap.find?_insert, if_pos rfl]
  have hfresh : ¬ now.tokenClock + lifespan ≤ now.tokenClock := by
    rw [Instant.le_def, Instant.nanos_add]
    omega
  exact ⟨_, claim_eq_ok_iff.mpr
    ⟨hform, _, hfind, decide_eq_false hfresh, rfl, rfl, rfl⟩⟩

theorem Privilege.exists_issue_of_invoke {d : Directory} {name : String} {authority : SshAuthority}
    {subject : SshAuthority.Subject} {now : Moment} {s t : Session} {body answer : String}
    (h : (signSsh name authority subject).invoke d now s body = .ok (answer, t)) :
    ∃ cs, authority.issue now.signingClock now.random body subject = .ok cs ∧
      answer = SshAuthority.lines cs := by
  obtain ⟨text, hanswer, heq⟩ := exists_of_map_eq_ok h
  cases heq
  unfold sshAnswer at hanswer
  split at hanswer
  · next cs hcs =>
    cases hanswer
    exact ⟨cs, hcs, rfl⟩
  · cases hanswer

theorem Ssh.flatMap_encodeText_ne_nil {principals : List String} (h : principals ≠ []) :
    principals.flatMap encodeText ≠ [] := by
  obtain ⟨principal, rest, rfl⟩ := List.exists_cons_of_ne_nil h
  intro hnil
  have hlength := congrArg List.length hnil
  rw [List.flatMap_cons, List.length_append, encodeText, length_encodeString] at hlength
  simp at hlength

namespace Engine

/-- Whatever an engine grants amounts to something. -/
structure IsSubstantial (e : Engine) : Prop where
  /-- All that anybody holds is substantial. -/
  privileges : ∀ principal api p, e.privilegeOf principal api = .ok p → p.IsSubstantial
  /-- A certificate for a key in a text names its principals, and so do its octets. -/
  certified : ∀ now s o answer t name authority subject,
    e.privilegeOf s.acting.principal o.api = .ok (.signSsh name authority subject) →
    e.invoke now s o = .ok (answer, t) → ∃ cs, answer = SshAuthority.lines cs ∧
      ∀ c ∈ cs, c.statement.principals = subject.principals ∧ c.statement.principals ≠ [] ∧
        c.statement.principals.flatMap Ssh.encodeText ≠ []
  /-- A token can be claimed in the very moment in which it is granted. -/
  claimable : ∀ now s o token t scope lifespan,
    e.privilegeOf s.acting.principal o.api = .ok (.bootstrapAccount scope lifespan) →
    e.invoke now s o = .ok (token, t) →
      ∃ r, t.registry.claim now.tokenClock token = .ok (o.body, r)
  /-- An expanded text is empty just if its template is. -/
  expands : ∀ vars within, substitute vars within = .ok "" ↔ within = ""

section
variable {d : Directory} {authorities : Authorities} {grants : NameMap Grant} {e : Engine}

theorem run_of_held {p : Privilege} {now : Moment} {s t : Session} {o : Operation} {answer : String}
    (hp : e.privilegeOf s.acting.principal o.api = .ok p)
    (h : e.invoke now s o = .ok (answer, t)) :
    p.invoke e.directory now s o.body = .ok (answer, t) := by
  obtain ⟨p', hheld, hrun⟩ := invoke_eq_ok_iff.mp h
  rw [hp] at hheld
  cases hheld
  exact hrun

theorem isSubstantial_of_privilegeOf (h : compile d authorities grants = .ok e)
    {principal api : String} {p : Privilege} (hp : e.privilegeOf principal api = .ok p) :
    p.IsSubstantial := by
  cases hg : grants.find? api with
  | none =>
      rw [privilegeOf_of_unknown h hg] at hp
      cases hp
  | some g =>
      obtain ⟨bound, hcompile, hfind⟩ := find?_compile_of_some h hg
      obtain ⟨bound', hfind', hholds⟩ := privilegeOf_eq_ok_iff.mp hp
      rw [hfind] at hfind'
      cases hfind'
      exact isSubstantial_of_compileGrant hcompile hholds

/-- **Nobody is granted anything empty**, and so no certificate is good for everybody, and no token
has expired before it can be claimed. -/
theorem isSubstantial_of_compile (h : compile d authorities grants = .ok e) : e.IsSubstantial := by
  constructor
  case privileges => exact fun principal api p hp => isSubstantial_of_privilegeOf h hp
  case certified =>
    intro now s o answer t name authority subject hp hinvoke
    obtain ⟨-, hprincipals, -⟩ := isSubstantial_of_privilegeOf h hp
    obtain ⟨cs, hissue, rfl⟩ := Privilege.exists_issue_of_invoke (run_of_held hp hinvoke)
    refine ⟨cs, rfl, fun c hc => ?_⟩
    have hnamed := (SshAuthority.isIssued_of_issue hissue c hc).principals
    have hne : c.statement.principals ≠ [] := by rwa [hnamed]
    exact ⟨hnamed, hne, Ssh.flatMap_encodeText_ne_nil hne⟩
  case claimable =>
    intro now s o token t scope lifespan hp hinvoke
    have hpositive : 0 < lifespan.toNanos := isSubstantial_of_privilegeOf h hp
    obtain ⟨-, r, hgrant, rfl⟩ := Privilege.invoke_bootstrapAccount (run_of_held hp hinvoke)
    exact Registry.exists_claim_of_grant hgrant hpositive
  case expands => exact fun vars within => substitute_eq_empty_iff

end

/-! ### Operators -/

/-- A grant for a person, with a certificate, a line for a key, a greeting and an invitation. -/
def deskGrants : NameMap Grant := NameMap.ofList [
  ("badge", { (default : Grant) with
    group := "operators", privilege := "sign-tls", authority := some "ca", lifespan := some "1h",
    commonName := some "(principal)" }),
  ("greet", { (default : Grant) with
    group := "operators", privilege := "construct-configuration",
    contents := some "hello (principal)" }),
  ("invite", { (default : Grant) with
    group := "operators", privilege := "bootstrap-account", scope := some "staff",
    lifespan := some "1ns" }),
  ("login", { (default : Grant) with
    group := "operators", privilege := "sign-ssh", authority := some "keys", lifespan := some "1h",
    commonName := some "(principal)", allowedNames := some ["(principal)"] })]

/-- An authority of each kind that signs. -/
def deskAuthorities : Authorities := NameMap.ofList [
  ("ca", .tls World.crewAuthority), ("keys", .ssh SshAuthority.crewSigner)]

/-- What an operator holds, by kind. -/
def deskKinds (e : Engine) : List (Option PrivilegeKind) :=
  ["badge", "greet", "invite", "login"].map
    (fun api => (e.privilegeOf "ann" api).toOption.map Privilege.kind)

theorem isSubstantial_of_desk : ∃ d e,
    Directory.ofConfig World.crewGroups World.crewAccounts = .ok d ∧
    compile d deskAuthorities deskGrants = .ok e ∧ e.IsSubstantial ∧
    deskKinds e =
      [some .signTls, some .constructConfiguration, some .bootstrapAccount, some .signSsh] := by
  have hdesk : ((Directory.ofConfig World.crewGroups World.crewAccounts).toOption.bind
      (fun d => (compile d deskAuthorities deskGrants).toOption)).map deskKinds =
        some [some .signTls, some .constructConfiguration, some .bootstrapAccount,
          some .signSsh] := by
    decide +kernel
  obtain ⟨e, he, hkinds⟩ := Option.map_eq_some_iff.mp hdesk
  obtain ⟨d, hd, hcompile⟩ := Option.bind_eq_some_iff.mp he
  have hok := eq_ok_of_toOption hcompile
  exact ⟨d, e, eq_ok_of_toOption hd, hok, isSubstantial_of_compile hok, hkinds⟩

end Engine
end CredentialServer
