import CredentialServer.Grants.Compile

/-! # What an account holds under a grant

A grant is compiled in two steps: its parameters are checked and looked up once, and its templates
are expanded for every member of its group.  `Grant.Binds` says in one step which privilege a grant
gives to an account with certain metadata, without a blueprint in between.  Main statements:
`Grant.Binds.unique` (there is at most one) and `compileGrant_spec` (who holds which privilege under
a compiled grant). -/

namespace CredentialServer

theorem exists_of_bind_eq_ok {ε : Type u} {α β : Type v} {x : Except ε α} {f : α → Except ε β}
    {b : β} (h : (x >>= f) = .ok b) : ∃ a, x = .ok a ∧ f a = .ok b := by
  cases x with
  | error e => cases h
  | ok a => exact ⟨a, rfl, h⟩

theorem exists_of_map_eq_ok {ε : Type u} {α β : Type v} {x : Except ε α} {f : α → β} {b : β}
    (h : x.map f = .ok b) : ∃ a, x = .ok a ∧ f a = b := by
  cases x with
  | error e => cases h
  | ok a =>
      cases h
      exact ⟨a, rfl, rfl⟩

theorem eq_ok_of_mapError_eq_ok {ε δ : Type u} {α : Type v} {f : ε → δ} {x : Except ε α} {a : α}
    (h : x.mapError f = .ok a) : x = .ok a := by
  cases x with
  | error e => cases h
  | ok b =>
      cases h
      rfl

theorem eq_ok_of_toOption {ε : Type u} {α : Type v} {x : Except ε α} {a : α}
    (h : x.toOption = some a) : x = .ok a := by
  cases x with
  | error _ => cases h
  | ok b =>
      cases h
      rfl

theorem exists_ok_of_isSome {ε δ : Type u} {α β : Type v} {x : Except ε α} {f : α → Except δ β}
    (h : (x.toOption.bind (fun a => (f a).toOption)).isSome = true) :
    ∃ a b, x = .ok a ∧ f a = .ok b := by
  obtain ⟨b, hb⟩ := Option.isSome_iff_exists.mp h
  obtain ⟨a, ha, hf⟩ := Option.bind_eq_some_iff.mp hb
  exact ⟨a, b, eq_ok_of_toOption ha, eq_ok_of_toOption hf⟩

/-- The privilege that a grant gives to an account with these values.  Authority and scope are those
that the grant names, and its templates are expanded with the values of the account. -/
inductive Grant.Binds (d : Directory) (authorities : Authorities) (g : Grant) (vars : Variables) :
    Privilege → Prop where
  | signTls {name lifespan template commonName : String} {authority : TlsAuthority} {span : Span}
      {names : List String} (hkind : g.privilege = "sign-tls") (hname : g.authority = some name)
      (hauthority : authorities.find? name = some (.tls authority))
      (hlifespan : g.lifespan = some lifespan) (hspan : Lifespan.parse lifespan = .ok span)
      (hpositive : 0 < span.toNanos) (htemplate : g.commonName = some template)
      (hcommonName : substitute vars template = .ok commonName)
      (hnames : substituteAll vars (g.allowedNames.getD []) = .ok names) :
      Binds d authorities g vars
        (.signTls name authority ⟨g.isHost.getD false, span, commonName, names⟩)
  | signSsh {name lifespan template keyId : String} {authority : SshAuthority} {span : Span}
      {templates principals : List String} (hkind : g.privilege = "sign-ssh")
      (hname : g.authority = some name)
      (hauthority : authorities.find? name = some (.ssh authority))
      (hlifespan : g.lifespan = some lifespan) (hspan : Lifespan.parse lifespan = .ok span)
      (hpositive : 0 < span.toNanos) (htemplate : g.commonName = some template)
      (hkeyId : substitute vars template = .ok keyId) (htemplates : g.allowedNames = some templates)
      (hnonempty : templates ≠ []) (hprincipals : substituteAll vars templates = .ok principals) :
      Binds d authorities g vars
        (.signSsh name authority ⟨g.isHost.getD false, span, keyId, principals⟩)
  | bootstrapAccount {name lifespan : String} {scope : Group} {span : Span}
      (hkind : g.privilege = "bootstrap-account") (hname : g.scope = some name)
      (hscope : d.group name = .ok scope) (hlifespan : g.lifespan = some lifespan)
      (hspan : Lifespan.parse lifespan = .ok span) (hpositive : 0 < span.toNanos) :
      Binds d authorities g vars (.bootstrapAccount scope span)
  | impersonate {name : String} {scope : Group} (hkind : g.privilege = "impersonate")
      (hname : g.scope = some name) (hscope : d.group name = .ok scope) :
      Binds d authorities g vars (.impersonate scope)
  | constructConfiguration {template contents : String}
      (hkind : g.privilege = "construct-configuration") (htemplate : g.contents = some template)
      (hcontents : substitute vars template = .ok contents) :
      Binds d authorities g vars (.constructConfiguration contents)
  | fetchKey {name : String} {authority : StaticAuthority} (hkind : g.privilege = "fetch-key")
      (hname : g.authority = some name)
      (hauthority : authorities.find? name = some (.static authority)) :
      Binds d authorities g vars (.fetchKey name authority)

namespace Grant

variable {d : Directory} {authorities : Authorities} {g : Grant} {vars : Variables}

theorem Binds.text_kind {p : Privilege} (h : g.Binds d authorities vars p) :
    g.privilege = p.kind.text := by
  cases h <;> assumption

theorem Binds.unique {p q : Privilege} (hp : g.Binds d authorities vars p)
    (hq : g.Binds d authorities vars q) : p = q := by
  have hkind : p.kind = q.kind := by
    have := PrivilegeKind.ofText?_text p.kind
    rw [← hp.text_kind, hq.text_kind, PrivilegeKind.ofText?_text] at this
    exact (Option.some.inj this).symm
  -- The kind leaves six cases; in each the parameters of the grant determine the rest.
  cases hp <;> cases hq <;> cases hkind <;> simp_all

/-! ### Parameters that were checked -/

theorem exists_of_isGiven {s : Option String} (h : isGiven s = true) : ∃ t, s = some t := by
  cases s with
  | none => cases h
  | some t => exact ⟨t, rfl⟩

theorem exists_authority (h : g.has .authority = true) : ∃ t, g.authority = some t :=
  exists_of_isGiven h

theorem exists_scope (h : g.has .scope = true) : ∃ t, g.scope = some t := exists_of_isGiven h

theorem exists_lifespan (h : g.has .lifespan = true) : ∃ t, g.lifespan = some t :=
  exists_of_isGiven h

theorem exists_commonName (h : g.has .commonName = true) : ∃ t, g.commonName = some t :=
  exists_of_isGiven h

theorem exists_contents (h : g.has .contents = true) : ∃ t, g.contents = some t :=
  exists_of_isGiven h

end Grant

theorem positiveLifespan_eq_ok_iff {value : String} {span : Span} :
    positiveLifespan value = .ok span ↔ Lifespan.parse value = .ok span ∧ 0 < span.toNanos := by
  unfold positiveLifespan
  cases Lifespan.parse value with
  | error e => simp
  | ok found =>
      have hzero := found.isZero_iff
      cases hz : found.isZero with
      | true =>
          rw [hz] at hzero
          simp only [hz, if_true, reduceCtorEq, Except.ok.injEq, false_iff, not_and]
          rintro rfl
          have := hzero.mp rfl
          omega
      | false =>
          have hne : found.toNanos ≠ 0 := by
            intro h
            rw [hzero.mpr h] at hz
            cases hz
          simp only [hz, Bool.false_eq_true, if_false, Except.ok.injEq]
          constructor
          · rintro rfl
            exact ⟨rfl, Nat.pos_of_ne_zero hne⟩
          · exact fun h => h.1

theorem Authorities.forKind_eq_ok {authorities : Authorities} {k : PrivilegeKind}
    {expected : AuthorityKind} {pick : Authority → Option α} {name : String} {a : α}
    (h : authorities.forKind k expected pick name = .ok a) :
    ∃ b, authorities.find? name = some b ∧ pick b = some a := by
  unfold Authorities.forKind at h
  cases hf : authorities.find? name with
  | none =>
      rw [hf] at h
      cases h
  | some b =>
      rw [hf] at h
      simp only at h
      cases hp : pick b with
      | none =>
          rw [hp] at h
          cases h
      | some found =>
          rw [hp] at h
          cases h
          exact ⟨b, rfl, hp⟩

namespace Authority

theorem tls?_eq_some {a : Authority} {b : TlsAuthority} (h : a.tls? = some b) : a = .tls b := by
  cases a <;> cases h
  rfl

theorem ssh?_eq_some {a : Authority} {b : SshAuthority} (h : a.ssh? = some b) : a = .ssh b := by
  cases a <;> cases h
  rfl

theorem static?_eq_some {a : Authority} {b : StaticAuthority} (h : a.static? = some b) :
    a = .static b := by
  cases a <;> cases h
  rfl

end Authority

/-! ### From blueprints to privileges -/

namespace Blueprint

variable {d : Directory} {authorities : Authorities} {g : Grant} {vars : Variables}
variable {b : Blueprint} {p : Privilege}

theorem expand_eq_ok {template text : String} (h : expand vars template = .ok text) :
    substitute vars template = .ok text := eq_ok_of_mapError_eq_ok h

theorem expandAll_eq_ok {templates texts : List String} (h : expandAll vars templates = .ok texts) :
    substituteAll vars templates = .ok texts := eq_ok_of_mapError_eq_ok h

theorem scopeOf_eq_ok {name : String} {scope : Group} (h : scopeOf d name = .ok scope) :
    d.group name = .ok scope := eq_ok_of_mapError_eq_ok h

theorem binds_signTls (hkind : g.privilege = "sign-tls")
    (hhas : ∀ q ∈ PrivilegeKind.signTls.required, g.has q = true)
    (hb : ofGrant authorities .signTls g = .ok b) (hp : b.bind d vars = .ok p) :
    g.Binds d authorities vars p := by
  obtain ⟨name, hname⟩ := Grant.exists_authority (hhas .authority (by decide))
  obtain ⟨lifespan, hlifespan⟩ := Grant.exists_lifespan (hhas .lifespan (by decide))
  obtain ⟨template, htemplate⟩ := Grant.exists_commonName (hhas .commonName (by decide))
  unfold ofGrant at hb
  rw [hname, hlifespan, htemplate] at hb
  obtain ⟨authority, ha, hb⟩ := exists_of_bind_eq_ok hb
  obtain ⟨span, hspan, hb⟩ := exists_of_bind_eq_ok hb
  cases hb
  obtain ⟨commonName, hc, hp⟩ := exists_of_bind_eq_ok hp
  obtain ⟨names, hn, hp⟩ := exists_of_bind_eq_ok hp
  cases hp
  obtain ⟨found, hfound, hpick⟩ := Authorities.forKind_eq_ok ha
  obtain rfl := Authority.tls?_eq_some hpick
  obtain ⟨hparse, hpositive⟩ := positiveLifespan_eq_ok_iff.mp hspan
  exact .signTls hkind hname hfound hlifespan hparse hpositive htemplate (expand_eq_ok hc)
    (expandAll_eq_ok hn)

theorem binds_signSsh (hkind : g.privilege = "sign-ssh")
    (hhas : ∀ q ∈ PrivilegeKind.signSsh.required, g.has q = true)
    (hnames : PrivilegeKind.signSsh.lacksPrincipals g = false)
    (hb : ofGrant authorities .signSsh g = .ok b) (hp : b.bind d vars = .ok p) :
    g.Binds d authorities vars p := by
  obtain ⟨name, hname⟩ := Grant.exists_authority (hhas .authority (by decide))
  obtain ⟨lifespan, hlifespan⟩ := Grant.exists_lifespan (hhas .lifespan (by decide))
  obtain ⟨template, htemplate⟩ := Grant.exists_commonName (hhas .commonName (by decide))
  obtain ⟨templates, htemplates⟩ : ∃ l, g.allowedNames = some l :=
    Option.isSome_iff_exists.mp (hhas .allowedNames (by decide))
  have hnonempty : templates ≠ [] := by
    rintro rfl
    simp [PrivilegeKind.lacksPrincipals, htemplates] at hnames
  unfold ofGrant at hb
  rw [hname, hlifespan, htemplate, htemplates] at hb
  obtain ⟨authority, ha, hb⟩ := exists_of_bind_eq_ok hb
  obtain ⟨span, hspan, hb⟩ := exists_of_bind_eq_ok hb
  cases hb
  obtain ⟨keyId, hk, hp⟩ := exists_of_bind_eq_ok hp
  obtain ⟨principals, hn, hp⟩ := exists_of_bind_eq_ok hp
  cases hp
  obtain ⟨found, hfound, hpick⟩ := Authorities.forKind_eq_ok ha
  obtain rfl := Authority.ssh?_eq_some hpick
  obtain ⟨hparse, hpositive⟩ := positiveLifespan_eq_ok_iff.mp hspan
  exact .signSsh hkind hname hfound hlifespan hparse hpositive htemplate (expand_eq_ok hk)
    htemplates hnonempty (expandAll_eq_ok hn)

theorem binds_bootstrapAccount (hkind : g.privilege = "bootstrap-account")
    (hhas : ∀ q ∈ PrivilegeKind.bootstrapAccount.required, g.has q = true)
    (hb : ofGrant authorities .bootstrapAccount g = .ok b) (hp : b.bind d vars = .ok p) :
    g.Binds d authorities vars p := by
  obtain ⟨name, hname⟩ := Grant.exists_scope (hhas .scope (by decide))
  obtain ⟨lifespan, hlifespan⟩ := Grant.exists_lifespan (hhas .lifespan (by decide))
  unfold ofGrant at hb
  rw [hname, hlifespan] at hb
  obtain ⟨span, hspan, hb⟩ := exists_of_bind_eq_ok hb
  cases hb
  obtain ⟨scope, hs, hp⟩ := exists_of_bind_eq_ok hp
  cases hp
  obtain ⟨hparse, hpositive⟩ := positiveLifespan_eq_ok_iff.mp hspan
  exact .bootstrapAccount hkind hname (scopeOf_eq_ok hs) hlifespan hparse hpositive

theorem binds_impersonate (hkind : g.privilege = "impersonate")
    (hhas : ∀ q ∈ PrivilegeKind.impersonate.required, g.has q = true)
    (hb : ofGrant authorities .impersonate g = .ok b) (hp : b.bind d vars = .ok p) :
    g.Binds d authorities vars p := by
  obtain ⟨name, hname⟩ := Grant.exists_scope (hhas .scope (by decide))
  unfold ofGrant at hb
  rw [hname] at hb
  cases hb
  obtain ⟨scope, hs, hp⟩ := exists_of_bind_eq_ok hp
  cases hp
  exact .impersonate hkind hname (scopeOf_eq_ok hs)

theorem binds_constructConfiguration (hkind : g.privilege = "construct-configuration")
    (hhas : ∀ q ∈ PrivilegeKind.constructConfiguration.required, g.has q = true)
    (hb : ofGrant authorities .constructConfiguration g = .ok b) (hp : b.bind d vars = .ok p) :
    g.Binds d authorities vars p := by
  obtain ⟨template, htemplate⟩ := Grant.exists_contents (hhas .contents (by decide))
  unfold ofGrant at hb
  rw [htemplate] at hb
  cases hb
  obtain ⟨contents, hc, hp⟩ := exists_of_bind_eq_ok hp
  cases hp
  exact .constructConfiguration hkind htemplate (expand_eq_ok hc)

theorem binds_fetchKey (hkind : g.privilege = "fetch-key")
    (hhas : ∀ q ∈ PrivilegeKind.fetchKey.required, g.has q = true)
    (hb : ofGrant authorities .fetchKey g = .ok b) (hp : b.bind d vars = .ok p) :
    g.Binds d authorities vars p := by
  obtain ⟨name, hname⟩ := Grant.exists_authority (hhas .authority (by decide))
  unfold ofGrant at hb
  rw [hname] at hb
  obtain ⟨authority, ha, hb⟩ := exists_of_bind_eq_ok hb
  cases hb
  cases hp
  obtain ⟨found, hfound, hpick⟩ := Authorities.forKind_eq_ok ha
  obtain rfl := Authority.static?_eq_some hpick
  exact .fetchKey hkind hname hfound

/-- A blueprint of checked parameters gives every account what its grant says. -/
theorem binds_of_bind {k : PrivilegeKind} (hk : PrivilegeKind.ofText? g.privilege = some k)
    (hcheck : k.checkParameters g = .ok ()) (hb : ofGrant authorities k g = .ok b)
    (hp : b.bind d vars = .ok p) : g.Binds d authorities vars p := by
  have hkind := (PrivilegeKind.text_of_ofText? hk).symm
  obtain ⟨-, hhas, hnames⟩ := (PrivilegeKind.checkParameters_eq_ok_iff k g).mp hcheck
  cases k with
  | signTls => exact binds_signTls hkind hhas hb hp
  | signSsh => exact binds_signSsh hkind hhas hnames hb hp
  | bootstrapAccount => exact binds_bootstrapAccount hkind hhas hb hp
  | impersonate => exact binds_impersonate hkind hhas hb hp
  | constructConfiguration => exact binds_constructConfiguration hkind hhas hb hp
  | fetchKey => exact binds_fetchKey hkind hhas hb hp

theorem bindFor_eq_ok {principal : String} (h : b.bindFor d principal = .ok p) :
    ∃ a, d.account principal = .ok a ∧ b.bind d a.metadata = .ok p := by
  unfold bindFor at h
  cases ha : d.account principal with
  | error e =>
      rw [ha] at h
      cases h
  | ok a =>
      rw [ha] at h
      exact ⟨a, rfl, h⟩

end Blueprint

/-! ### Compiled grants -/

theorem compileGrant_eq_ok {d : Directory} {authorities : Authorities} {g : Grant} {b : BoundGrant}
    (h : compileGrant d authorities g = .ok b) : ∃ k group blueprint,
      PrivilegeKind.ofText? g.privilege = some k ∧ k.checkParameters g = .ok () ∧
      d.group g.group = .ok group ∧ Blueprint.ofGrant authorities k g = .ok blueprint ∧
      group.members.mapM (fun principal _ => blueprint.bindFor d principal) = .ok b.holders := by
  unfold compileGrant at h
  cases hk : PrivilegeKind.ofText? g.privilege with
  | none =>
      rw [hk] at h
      cases h
  | some k =>
      rw [hk] at h
      obtain ⟨_, hcheck, h⟩ := exists_of_bind_eq_ok h
      obtain ⟨group, hgroup, h⟩ := exists_of_bind_eq_ok h
      obtain ⟨blueprint, hblueprint, h⟩ := exists_of_bind_eq_ok h
      obtain ⟨holders, hholders, h⟩ := exists_of_bind_eq_ok h
      cases h
      exact ⟨k, group, blueprint, rfl, hcheck, eq_ok_of_mapError_eq_ok hgroup, hblueprint, hholders⟩

/-- A compiled grant has a holder for each member of its group and no other.  Each holds what the
grant gives to its own account. -/
theorem compileGrant_spec {d : Directory} {authorities : Authorities} {g : Grant} {b : BoundGrant}
    (h : compileGrant d authorities g = .ok b) : ∃ group, d.group g.group = .ok group ∧
      (∀ principal, group.hasMember principal = false → b.holders.find? principal = none) ∧
      ∀ principal, group.hasMember principal = true → ∃ a p, d.account principal = .ok a ∧
        b.holders.find? principal = some p ∧ g.Binds d authorities a.metadata p := by
  obtain ⟨k, group, blueprint, hk, hcheck, hgroup, hblueprint, hholders⟩ := compileGrant_eq_ok h
  refine ⟨group, hgroup, ?_, ?_⟩
  · intro principal hno
    have hnone : group.members.find? principal = none := by
      simpa [Group.hasMember, NameMap.contains] using hno
    exact NameMap.find?_mapM_of_none hholders hnone
  · intro principal hyes
    have hsome : (group.members.find? principal).isSome = true := hyes
    obtain ⟨u, hu⟩ := Option.isSome_iff_exists.mp hsome
    obtain ⟨p, hp, hfind⟩ := NameMap.find?_mapM_of_some hholders hu
    obtain ⟨a, ha, hbind⟩ := Blueprint.bindFor_eq_ok hp
    exact ⟨a, p, ha, hfind, Blueprint.binds_of_bind hk hcheck hblueprint hbind⟩

end CredentialServer
