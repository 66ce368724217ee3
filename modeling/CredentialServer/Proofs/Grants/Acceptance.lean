import CredentialServer.Proofs.Grants.Policy

/-! # Which grants are accepted, and what they become

A grant is checked in three places: its parameters by themselves, authority and lifespan once, scope
and templates for every member of its group.  `Grant.IsValid` says all of it at once, from the
configuration alone.  Each of the three steps succeeds just if its part of the validity holds
(`exists_ofGrant_iff`, `exists_bind_iff`), hence so does their composition
(`exists_compileGrant_iff`).  Main statement: `compilesExactly_of_config`. -/

namespace CredentialServer

/-! ### Valid grants -/

namespace Grant

/-- What a grant gives.  An empty text gives nothing; a switch and a list are given whatever they
say. -/
def Gives (g : Grant) : Parameter → Prop
  | .scope => ∃ text, g.scope = some text ∧ text ≠ ""
  | .authority => ∃ text, g.authority = some text ∧ text ≠ ""
  | .isHost => ∃ b, g.isHost = some b
  | .lifespan => ∃ text, g.lifespan = some text ∧ text ≠ ""
  | .commonName => ∃ text, g.commonName = some text ∧ text ≠ ""
  | .allowedNames => ∃ l, g.allowedNames = some l
  | .contents => ∃ text, g.contents = some text ∧ text ≠ ""

/-- What a kind of grant expands for every member. -/
def templates (g : Grant) : PrivilegeKind → List String
  | .signTls => g.commonName.toList ++ g.allowedNames.getD []
  | .signSsh => g.commonName.toList ++ g.allowedNames.getD []
  | .constructConfiguration => g.contents.toList
  | _ => []

/-- The authority that a kind uses is there. -/
def FindsAuthority (authorities : Authorities) (g : Grant) (k : PrivilegeKind) : Prop :=
  ∀ expected, k.authorityKind? = some expected →
    ∃ name a, g.authority = some name ∧ authorities.find? name = some a ∧ a.kind = expected

/-- A lifespan that is given can be read and is not zero. -/
def Lasts (g : Grant) : Prop := ∀ value, g.lifespan = some value → value ≠ "" →
  ∃ span, Lifespan.parse value = .ok span ∧ 0 < span.toNanos

/-- A grant can be bound to an account with these values. -/
structure Fits (d : Directory) (k : PrivilegeKind) (g : Grant) (vars : Variables) : Prop where
  scope : .scope ∈ k.required → ∃ name group, g.scope = some name ∧ d.group name = .ok group
  templates : ∀ template ∈ g.templates k, ∃ text, substitute vars template = .ok text

/-- A grant is a valid one of some kind. -/
structure IsValid (d : Directory) (authorities : Authorities) (g : Grant) (k : PrivilegeKind) :
    Prop where
  kind : g.privilege = k.text
  required : ∀ q ∈ k.required, g.Gives q
  taken : ∀ q, g.Gives q → q ∈ k.required ∨ q ∈ k.optional
  principals : k = .signSsh → g.allowedNames ≠ some []
  authority : g.FindsAuthority authorities k
  lifespan : g.Lasts
  members : ∃ group, d.group g.group = .ok group ∧ ∀ principal a,
    group.hasMember principal = true → d.account principal = .ok a → g.Fits d k a.metadata

end Grant

section
variable {d : Directory} {authorities : Authorities} {g : Grant} {k : PrivilegeKind}
variable {vars : Variables} {b : Blueprint}

/-! ### Parameters -/

theorem isGiven_iff {s : Option String} : isGiven s = true ↔ ∃ text, s = some text ∧ text ≠ "" := by
  cases s <;> simp [isGiven]

theorem Grant.has_iff_gives (g : Grant) (q : Parameter) : g.has q = true ↔ g.Gives q := by
  cases q with
  | isHost => exact Option.isSome_iff_exists
  | allowedNames => exact Option.isSome_iff_exists
  | scope => exact isGiven_iff
  | authority => exact isGiven_iff
  | lifespan => exact isGiven_iff
  | commonName => exact isGiven_iff
  | contents => exact isGiven_iff

theorem checkParameters_iff_gives : k.checkParameters g = .ok () ↔
    (∀ q, g.Gives q → q ∈ k.required ∨ q ∈ k.optional) ∧ (∀ q ∈ k.required, g.Gives q) ∧
      (k = .signSsh → g.allowedNames ≠ some []) := by
  rw [PrivilegeKind.checkParameters_eq_ok_iff]
  simp only [Grant.has_iff_gives, PrivilegeKind.lacksPrincipals, Bool.and_eq_false_iff,
    beq_eq_false_iff_ne, ne_eq, ← Decidable.imp_iff_not_or]

/-! ### Steps that may fail -/

theorem exists_bind_eq_ok_iff {ε α β : Type} {x : Except ε α} {f : α → Except ε β} :
    (∃ b, (x >>= f) = .ok b) ↔ ∃ a, x = .ok a ∧ ∃ b, f a = .ok b := by
  cases x with
  | error e => simp [bind, Except.bind]
  | ok a => simp [bind, Except.bind]

theorem exists_pure_eq_ok {ε α : Type} (a : α) : ∃ b, (pure a : Except ε α) = .ok b := ⟨a, rfl⟩

theorem mapError_eq_ok_iff {ε δ α : Type} {f : ε → δ} {x : Except ε α} {a : α} :
    x.mapError f = .ok a ↔ x = .ok a := by
  refine ⟨eq_ok_of_mapError_eq_ok, ?_⟩
  rintro rfl
  rfl

theorem exists_substituteAll_iff {l : List String} : (∃ texts, substituteAll vars l = .ok texts) ↔
    ∀ template ∈ l, ∃ text, substitute vars template = .ok text := by
  induction l with
  | nil => simp [substituteAll]
  | cons template l ih =>
      rw [List.forall_mem_cons, ← ih, substituteAll]
      cases substitute vars template with
      | error e => simp
      | ok text => cases substituteAll vars l <;> simp

theorem Authorities.exists_forKind_iff {α : Type} (k : PrivilegeKind) {expected : AuthorityKind}
    {pick : Authority → Option α} (hpick : ∀ a, (∃ b, pick a = some b) ↔ a.kind = expected)
    {name : String} : (∃ a, authorities.forKind k expected pick name = .ok a) ↔
      ∃ a, authorities.find? name = some a ∧ a.kind = expected := by
  unfold Authorities.forKind
  cases authorities.find? name with
  | none => simp
  | some a =>
      simp only [Option.some.injEq, exists_eq_left', ← hpick]
      cases pick a <;> simp

namespace Authority

theorem exists_tls?_iff (a : Authority) : (∃ b, a.tls? = some b) ↔ a.kind = .tls := by
  cases a <;> simp [tls?, kind]

theorem exists_ssh?_iff (a : Authority) : (∃ b, a.ssh? = some b) ↔ a.kind = .ssh := by
  cases a <;> simp [ssh?, kind]

theorem exists_static?_iff (a : Authority) : (∃ b, a.static? = some b) ↔ a.kind = .static := by
  cases a <;> simp [static?, kind]

end Authority

/-! ### What the kinds ask for -/

namespace Grant

theorem findsAuthority_iff {name : String} (hname : g.authority = some name)
    {expected : AuthorityKind} (hk : k.authorityKind? = some expected) :
    g.FindsAuthority authorities k ↔ ∃ a, authorities.find? name = some a ∧ a.kind = expected := by
  unfold FindsAuthority
  simp [hk, hname]

theorem lasts_iff {value : String} (hvalue : g.lifespan = some value) (hne : value ≠ "") :
    g.Lasts ↔ ∃ span, positiveLifespan value = .ok span := by
  unfold Lasts
  simp only [positiveLifespan_eq_ok_iff, hvalue, Option.some.injEq]
  constructor
  · intro h
    exact h value rfl hne
  · rintro h _ rfl -
    exact h

theorem lasts_of_not_gives (h : ¬ g.Gives .lifespan) : g.Lasts :=
  fun value hvalue hne => absurd ⟨value, hvalue, hne⟩ h

theorem fits_iff_of_signing (hk : k = .signTls ∨ k = .signSsh) {template : String}
    (htemplate : g.commonName = some template) : g.Fits d k vars ↔
      (∃ text, substitute vars template = .ok text) ∧
        ∀ t ∈ g.allowedNames.getD [], ∃ text, substitute vars t = .ok text := by
  have htemplates : g.templates k = template :: g.allowedNames.getD [] := by
    rcases hk with rfl | rfl <;> simp [templates, htemplate]
  have hscope : .scope ∉ k.required := by rcases hk with rfl | rfl <;> decide
  constructor
  · intro h
    have := h.templates
    rwa [htemplates, List.forall_mem_cons] at this
  · intro h
    refine ⟨fun hmem => absurd hmem hscope, ?_⟩
    rwa [htemplates, List.forall_mem_cons]

theorem fits_iff_of_scope (hk : k = .bootstrapAccount ∨ k = .impersonate) {name : String}
    (hname : g.scope = some name) : g.Fits d k vars ↔ ∃ group, d.group name = .ok group := by
  have htemplates : g.templates k = [] := by rcases hk with rfl | rfl <;> rfl
  have hscope : .scope ∈ k.required := by rcases hk with rfl | rfl <;> decide
  constructor
  · intro h
    obtain ⟨name', group, hname', hgroup⟩ := h.scope hscope
    rw [hname] at hname'
    cases hname'
    exact ⟨group, hgroup⟩
  · rintro ⟨group, hgroup⟩
    refine ⟨fun _ => ⟨name, group, hname, hgroup⟩, ?_⟩
    rw [htemplates]
    exact fun t ht => absurd ht List.not_mem_nil

theorem fits_iff_of_contents {template : String} (htemplate : g.contents = some template) :
    g.Fits d .constructConfiguration vars ↔ ∃ text, substitute vars template = .ok text := by
  constructor
  · intro h
    exact h.templates template (by simp [templates, htemplate])
  · intro h
    refine ⟨fun hmem => absurd hmem (by decide), ?_⟩
    simpa [templates, htemplate] using h

end Grant

namespace Blueprint

/-- The parameters of a grant that were checked can be looked up if the authority is there and the
lifespan is one. -/
theorem exists_ofGrant_iff (hrequired : ∀ q ∈ k.required, g.Gives q)
    (htaken : ∀ q, g.Gives q → q ∈ k.required ∨ q ∈ k.optional) :
    (∃ b, ofGrant authorities k g = .ok b) ↔ g.FindsAuthority authorities k ∧ g.Lasts := by
  cases k with
  | signTls =>
      obtain ⟨name, hname, -⟩ := hrequired .authority (by decide)
      obtain ⟨value, hvalue, hne⟩ := hrequired .lifespan (by decide)
      rw [Grant.findsAuthority_iff hname rfl, Grant.lasts_iff hvalue hne,
        ← Authorities.exists_forKind_iff .signTls Authority.exists_tls?_iff]
      unfold ofGrant
      rw [hname, hvalue]
      simp only [exists_bind_eq_ok_iff, exists_pure_eq_ok, and_true, exists_and_right,
        Option.getD_some]
  | signSsh =>
      obtain ⟨name, hname, -⟩ := hrequired .authority (by decide)
      obtain ⟨value, hvalue, hne⟩ := hrequired .lifespan (by decide)
      rw [Grant.findsAuthority_iff hname rfl, Grant.lasts_iff hvalue hne,
        ← Authorities.exists_forKind_iff .signSsh Authority.exists_ssh?_iff]
      unfold ofGrant
      rw [hname, hvalue]
      simp only [exists_bind_eq_ok_iff, exists_pure_eq_ok, and_true, exists_and_right,
        Option.getD_some]
  | bootstrapAccount =>
      obtain ⟨value, hvalue, hne⟩ := hrequired .lifespan (by decide)
      rw [Grant.lasts_iff hvalue hne]
      unfold ofGrant
      rw [hvalue]
      simp only [exists_bind_eq_ok_iff, exists_pure_eq_ok, and_true, Option.getD_some]
      simp [Grant.FindsAuthority, PrivilegeKind.authorityKind?]
  | impersonate =>
      have hnot : ¬ g.Gives .lifespan := fun h => absurd (htaken _ h) (by decide)
      simp [ofGrant, pure, Except.pure, Grant.FindsAuthority, PrivilegeKind.authorityKind?,
        Grant.lasts_of_not_gives hnot]
  | constructConfiguration =>
      have hnot : ¬ g.Gives .lifespan := fun h => absurd (htaken _ h) (by decide)
      simp [ofGrant, pure, Except.pure, Grant.FindsAuthority, PrivilegeKind.authorityKind?,
        Grant.lasts_of_not_gives hnot]
  | fetchKey =>
      have hnot : ¬ g.Gives .lifespan := fun h => absurd (htaken _ h) (by decide)
      obtain ⟨name, hname, -⟩ := hrequired .authority (by decide)
      rw [Grant.findsAuthority_iff hname rfl,
        ← Authorities.exists_forKind_iff .fetchKey Authority.exists_static?_iff]
      unfold ofGrant
      rw [hname]
      simp only [exists_bind_eq_ok_iff, exists_pure_eq_ok, and_true, Option.getD_some,
        Grant.lasts_of_not_gives hnot]

theorem exists_expand_iff {template : String} :
    (∃ text, expand vars template = .ok text) ↔ ∃ text, substitute vars template = .ok text := by
  unfold expand
  simp only [mapError_eq_ok_iff]

theorem exists_expandAll_iff {l : List String} : (∃ texts, expandAll vars l = .ok texts) ↔
    ∀ template ∈ l, ∃ text, substitute vars template = .ok text := by
  unfold expandAll
  simp only [mapError_eq_ok_iff, exists_substituteAll_iff]

/-- A blueprint of a grant can be bound to the accounts that the grant fits. -/
theorem exists_bind_iff (hrequired : ∀ q ∈ k.required, g.Gives q)
    (hb : ofGrant authorities k g = .ok b) :
    (∃ p, b.bind d vars = .ok p) ↔ g.Fits d k vars := by
  cases k with
  | signTls =>
      obtain ⟨template, htemplate, -⟩ := hrequired .commonName (by decide)
      unfold ofGrant at hb
      obtain ⟨a, -, hb⟩ := exists_of_bind_eq_ok hb
      obtain ⟨span, -, hb⟩ := exists_of_bind_eq_ok hb
      cases hb
      unfold bind
      simp only [exists_bind_eq_ok_iff, exists_pure_eq_ok, and_true, exists_and_right,
        exists_expand_iff, exists_expandAll_iff, htemplate, Option.getD_some]
      exact (Grant.fits_iff_of_signing (.inl rfl) htemplate).symm
  | signSsh =>
      obtain ⟨template, htemplate, -⟩ := hrequired .commonName (by decide)
      unfold ofGrant at hb
      obtain ⟨a, -, hb⟩ := exists_of_bind_eq_ok hb
      obtain ⟨span, -, hb⟩ := exists_of_bind_eq_ok hb
      cases hb
      unfold bind
      simp only [exists_bind_eq_ok_iff, exists_pure_eq_ok, and_true, exists_and_right,
        exists_expand_iff, exists_expandAll_iff, htemplate, Option.getD_some]
      exact (Grant.fits_iff_of_signing (.inr rfl) htemplate).symm
  | bootstrapAccount =>
      obtain ⟨name, hname, -⟩ := hrequired .scope (by decide)
      unfold ofGrant at hb
      obtain ⟨span, -, hb⟩ := exists_of_bind_eq_ok hb
      cases hb
      unfold bind scopeOf
      simp only [exists_bind_eq_ok_iff, exists_pure_eq_ok, and_true, mapError_eq_ok_iff, hname,
        Option.getD_some]
      exact (Grant.fits_iff_of_scope (.inl rfl) hname).symm
  | impersonate =>
      obtain ⟨name, hname, -⟩ := hrequired .scope (by decide)
      unfold ofGrant at hb
      cases hb
      unfold bind scopeOf
      simp only [exists_bind_eq_ok_iff, exists_pure_eq_ok, and_true, mapError_eq_ok_iff, hname,
        Option.getD_some]
      exact (Grant.fits_iff_of_scope (.inr rfl) hname).symm
  | constructConfiguration =>
      obtain ⟨template, htemplate, -⟩ := hrequired .contents (by decide)
      unfold ofGrant at hb
      cases hb
      unfold bind
      simp only [exists_bind_eq_ok_iff, exists_pure_eq_ok, and_true, exists_expand_iff, htemplate,
        Option.getD_some]
      exact (Grant.fits_iff_of_contents htemplate).symm
  | fetchKey =>
      unfold ofGrant at hb
      obtain ⟨a, -, hb⟩ := exists_of_bind_eq_ok hb
      cases hb
      have hscope : .scope ∉ PrivilegeKind.fetchKey.required := by decide
      have hfits : g.Fits d .fetchKey vars := by
        refine ⟨fun hmem => absurd hmem hscope, ?_⟩
        exact fun t ht => absurd ht List.not_mem_nil
      exact iff_of_true ⟨_, rfl⟩ hfits

theorem bindFor_of_account {a : Account} {principal : String} (ha : d.account principal = .ok a) :
    b.bindFor d principal = b.bind d a.metadata := by
  unfold bindFor
  rw [ha]

end Blueprint

/-! ### Compiled grants -/

/-- A grant is compiled just if it is a valid one of some kind. -/
theorem exists_compileGrant_iff {groups : Groups} {accounts : List AccountConfig}
    (hd : Directory.ofConfig groups accounts = .ok d) :
    (∃ bound, compileGrant d authorities g = .ok bound) ↔ ∃ k, g.IsValid d authorities k := by
  constructor
  · rintro ⟨bound, h⟩
    obtain ⟨k, group, b, hk, hcheck, hgroup, hb, hholders⟩ := compileGrant_eq_ok h
    obtain ⟨htaken, hrequired, hprincipals⟩ := checkParameters_iff_gives.mp hcheck
    obtain ⟨hauthority, hlifespan⟩ := (Blueprint.exists_ofGrant_iff hrequired htaken).mp ⟨b, hb⟩
    refine ⟨k, (PrivilegeKind.text_of_ofText? hk).symm, hrequired, htaken, hprincipals, hauthority,
      hlifespan, group, hgroup, ?_⟩
    intro principal a hmember ha
    obtain ⟨u, hu⟩ := Option.isSome_iff_exists.mp hmember
    obtain ⟨p, hp, -⟩ := NameMap.find?_mapM_of_some hholders hu
    rw [Blueprint.bindFor_of_account ha] at hp
    exact (Blueprint.exists_bind_iff hrequired hb).mp ⟨p, hp⟩
  · rintro ⟨k, h⟩
    obtain ⟨group, hgroup, hfits⟩ := h.members
    have hk : PrivilegeKind.ofText? g.privilege = some k := by
      rw [h.kind, PrivilegeKind.ofText?_text]
    have hcheck : k.checkParameters g = .ok () :=
      checkParameters_iff_gives.mpr ⟨h.taken, h.required, h.principals⟩
    obtain ⟨b, hb⟩ := (Blueprint.exists_ofGrant_iff h.required h.taken).mpr
      ⟨h.authority, h.lifespan⟩
    have hholders : ∃ holders,
        group.members.mapM (fun principal _ => b.bindFor d principal) = .ok holders := by
      refine NameMap.exists_mapM_iff.mpr ?_
      intro principal u hu
      have hmember : group.hasMember principal = true := Option.isSome_iff_exists.mpr ⟨u, hu⟩
      obtain ⟨a, ha, -⟩ :=
        ((Directory.flattens_ofConfig hd).hasMember_iff _ _ hgroup principal).mp hmember
      rw [Blueprint.bindFor_of_account ha]
      exact (Blueprint.exists_bind_iff h.required hb).mpr (hfits principal a hmember ha)
    obtain ⟨holders, hholders⟩ := hholders
    refine ⟨⟨g.group, holders⟩, ?_⟩
    unfold compileGrant
    rw [hk]
    simp only [hcheck, mapError_eq_ok_iff.mpr hgroup, hb]
    simp only [bind, Except.bind, hholders]
    rfl

theorem exists_compileGrants_iff {groups : Groups} {accounts : List AccountConfig}
    {grants : NameMap Grant} (hd : Directory.ofConfig groups accounts = .ok d) :
    (∃ compiled, compileGrants d authorities grants = .ok compiled) ↔
      ∀ api g, grants.find? api = some g → ∃ k, g.IsValid d authorities k := by
  unfold compileGrants
  rw [NameMap.exists_mapM_iff]
  simp only [mapError_eq_ok_iff, exists_compileGrant_iff hd]

/-- A compiled grant is bound to all members of its group and to nobody else.  Each of them holds
the one privilege that the grant gives to its own account. -/
structure BoundGrant.Implements (d : Directory) (authorities : Authorities) (g : Grant)
    (bound : BoundGrant) : Prop where
  group : bound.group = g.group
  names : ∃ group, d.group g.group = .ok group ∧ bound.holders.names = group.members.names
  holds : ∀ principal p, bound.holders.find? principal = some p → ∃ a,
    d.account principal = .ok a ∧ ∀ q, g.Binds d authorities a.metadata q ↔ q = p

theorem group_of_compileGrant {bound : BoundGrant} (h : compileGrant d authorities g = .ok bound) :
    bound.group = g.group := by
  unfold compileGrant at h
  cases hk : PrivilegeKind.ofText? g.privilege with
  | none =>
      rw [hk] at h
      cases h
  | some k =>
      rw [hk] at h
      obtain ⟨_, -, h⟩ := exists_of_bind_eq_ok h
      obtain ⟨_, -, h⟩ := exists_of_bind_eq_ok h
      obtain ⟨_, -, h⟩ := exists_of_bind_eq_ok h
      obtain ⟨_, -, h⟩ := exists_of_bind_eq_ok h
      cases h
      rfl

theorem implements_of_compileGrant {bound : BoundGrant}
    (h : compileGrant d authorities g = .ok bound) : bound.Implements d authorities g := by
  obtain ⟨k, group, b, hk, hcheck, hgroup, hb, hholders⟩ := compileGrant_eq_ok h
  refine ⟨group_of_compileGrant h, ⟨group, hgroup, NameMap.names_mapM hholders⟩, ?_⟩
  intro principal p hp
  cases hu : group.members.find? principal with
  | none =>
      rw [NameMap.find?_mapM_of_none hholders hu] at hp
      cases hp
  | some u =>
      obtain ⟨q, hq, hfind⟩ := NameMap.find?_mapM_of_some hholders hu
      rw [hp] at hfind
      cases hfind
      obtain ⟨a, ha, hbind⟩ := Blueprint.bindFor_eq_ok hq
      have hbinds := Blueprint.binds_of_bind hk hcheck hb hbind
      refine ⟨a, ha, fun r => ⟨fun hr => hr.unique hbinds, ?_⟩⟩
      rintro rfl
      exact hbinds

/-- What it means to compile the grants of a configuration. -/
structure CompilesExactly (d : Directory) (authorities : Authorities) (grants : NameMap Grant) :
    Prop where
  /-- Just the valid grants are accepted. -/
  accepts : (∃ compiled, compileGrants d authorities grants = .ok compiled) ↔
    ∀ api g, grants.find? api = some g → ∃ k, g.IsValid d authorities k
  /-- There is one compiled grant for each configured one. -/
  names : ∀ compiled, compileGrants d authorities grants = .ok compiled →
    compiled.names = grants.names
  /-- It is bound as the configured grant of its name says. -/
  binds : ∀ compiled, compileGrants d authorities grants = .ok compiled → ∀ api bound,
    compiled.find? api = some bound →
      ∃ g, grants.find? api = some g ∧ bound.Implements d authorities g

/-- **The grants of a configuration are compiled just if all of them are valid, and then each member
of a group holds just what its grant says**, for every directory that comes from a configuration. -/
theorem compilesExactly_of_config {groups : Groups} {accounts : List AccountConfig}
    (hd : Directory.ofConfig groups accounts = .ok d) (authorities : Authorities)
    (grants : NameMap Grant) : CompilesExactly d authorities grants := by
  refine ⟨exists_compileGrants_iff hd, fun compiled h => names_compileGrants h, ?_⟩
  intro compiled h api bound hbound
  cases hg : grants.find? api with
  | none =>
      rw [NameMap.find?_mapM_of_none h hg] at hbound
      cases hbound
  | some g =>
      obtain ⟨bound', hcompile, hfind⟩ := NameMap.find?_mapM_of_some h hg
      rw [hbound] at hfind
      cases hfind
      exact ⟨g, rfl, implements_of_compileGrant (mapError_eq_ok_iff.mp hcompile)⟩

theorem compilesExactly_of_greeting : ∃ d,
    Directory.ofConfig Engine.greetingGroups [Engine.greeted] = .ok d ∧
    CompilesExactly d ∅ Engine.greetingGrants ∧
    ∃ compiled, compileGrants d ∅ Engine.greetingGrants = .ok compiled := by
  have hcompiled : ((Directory.ofConfig Engine.greetingGroups [Engine.greeted]).toOption.bind
      (fun d => (compileGrants d ∅ Engine.greetingGrants).toOption)).isSome = true := by
    decide +kernel
  obtain ⟨d, compiled, hd, hc⟩ := exists_ok_of_isSome hcompiled
  exact ⟨d, hd, compilesExactly_of_config hd ∅ Engine.greetingGrants, compiled, hc⟩

end
end CredentialServer
