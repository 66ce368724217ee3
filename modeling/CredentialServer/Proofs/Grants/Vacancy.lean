import CredentialServer.Proofs.Grants.Acceptance
import CredentialServer.Proofs.Grants.Expansion

/-! # Grants of groups without members

Some of what a grant says makes sense or not whoever is in its group: its scope is a group or is
none, and the brackets of its templates pair up or do not (`Grant.IsCoherent`).  But scope and
templates are looked at once for every member of the grant's group.  A grant of a group that has a
member is therefore accepted only if it is coherent (`Grant.IsValid.isCoherent`); one of a group
without members is accepted whatever its scope and its templates say
(`Grant.Rewords.exists_isValid_iff`).  Main statement: `checksMembers_of_config`. -/

namespace CredentialServer

theorem PrivilegeKind.text_inj {k k' : PrivilegeKind} (h : k.text = k'.text) : k = k' := by
  have hread := PrivilegeKind.ofText?_text k
  rw [h, PrivilegeKind.ofText?_text] at hread
  exact (Option.some.inj hread).symm

namespace Grant

/-- All that a grant says as a template, whether its kind expands it or not. -/
def allTemplates (g : Grant) : List String :=
  g.commonName.toList ++ g.allowedNames.getD [] ++ g.contents.toList

/-- A scope that is needed is a group, and the brackets of all templates pair up. -/
structure IsCoherent (d : Directory) (g : Grant) : Prop where
  scope : ∀ k : PrivilegeKind, g.privilege = k.text → k = .bootstrapAccount ∨ k = .impersonate →
    ∃ name group, g.scope = some name ∧ d.group name = .ok group
  paired : ∀ template ∈ g.allTemplates, Template.IsPaired template

/-- Somebody is in the group of a grant. -/
def IsPopulated (d : Directory) (g : Grant) : Prop :=
  ∃ group principal, d.group g.group = .ok group ∧ group.hasMember principal = true

/-- Two grants give the same parameters, and differ at most in what their scopes and templates
say. -/
structure Rewords (g g' : Grant) : Prop where
  privilege : g'.privilege = g.privilege
  group : g'.group = g.group
  authority : g'.authority = g.authority
  isHost : g'.isHost = g.isHost
  lifespan : g'.lifespan = g.lifespan
  gives : ∀ q, g'.Gives q ↔ g.Gives q
  principals : g'.allowedNames = some [] ↔ g.allowedNames = some []

section
variable {d : Directory} {authorities : Authorities} {g g' : Grant} {k : PrivilegeKind}

/-! ### Groups with members -/

theorem mem_templates_of_taken (htaken : ∀ q, g.Gives q → q ∈ k.required ∨ q ∈ k.optional)
    {template : String} (hmem : template ∈ g.allTemplates) (hne : template ≠ "") :
    template ∈ g.templates k := by
  unfold allTemplates at hmem
  simp only [List.mem_append, Option.mem_toList] at hmem
  rcases hmem with (hname | hnames) | hcontents
  · have hgives := htaken .commonName ⟨template, hname, hne⟩
    cases k <;> simp [PrivilegeKind.required, PrivilegeKind.optional] at hgives <;>
      simp [templates, show g.commonName = some template from hname]
  · cases hl : g.allowedNames with
    | none =>
        rw [hl] at hnames
        cases hnames
    | some l =>
        rw [hl] at hnames
        have hgives := htaken .allowedNames ⟨l, hl⟩
        cases k <;> simp [PrivilegeKind.required, PrivilegeKind.optional] at hgives <;>
          simp [templates, hl, show template ∈ l from hnames]
  · have hgives := htaken .contents ⟨template, hcontents, hne⟩
    cases k <;> simp [PrivilegeKind.required, PrivilegeKind.optional] at hgives
    simp [templates, show g.contents = some template from hcontents]

/-- A valid grant of a group that has a member is coherent: it was bound to this member. -/
theorem IsValid.isCoherent {groups : Groups} {accounts : List AccountConfig}
    (hd : Directory.ofConfig groups accounts = .ok d) (h : g.IsValid d authorities k)
    (hpopulated : g.IsPopulated d) : g.IsCoherent d := by
  obtain ⟨group, principal, hgroup, hmember⟩ := hpopulated
  obtain ⟨group', hgroup', hfits⟩ := h.members
  rw [hgroup] at hgroup'
  cases hgroup'
  obtain ⟨a, ha, -⟩ :=
    ((Directory.flattens_ofConfig hd).hasMember_iff _ _ hgroup principal).mp hmember
  have hfit := hfits principal a hmember ha
  constructor
  · intro k' htext hk'
    have hk : k = k' := PrivilegeKind.text_inj (h.kind.symm.trans htext)
    have hrequired : .scope ∈ k.required := by
      rcases hk' with rfl | rfl <;> rw [hk] <;> decide
    exact hfit.scope hrequired
  · intro template hmem
    -- an empty text counts as no parameter, so a kind that takes no templates may still have it
    by_cases hempty : template = ""
    · rw [hempty]
      exact Template.isPaired_empty
    · obtain ⟨text, htext⟩ :=
        hfit.templates template (mem_templates_of_taken h.taken hmem hempty)
      exact isPaired_of_substitute htext

/-! ### Groups without members -/

theorem Rewords.symm (h : g.Rewords g') : g'.Rewords g where
  privilege := h.privilege.symm
  group := h.group.symm
  authority := h.authority.symm
  isHost := h.isHost.symm
  lifespan := h.lifespan.symm
  gives := fun q => (h.gives q).symm
  principals := h.principals.symm

theorem Rewords.isPopulated_iff (h : g.Rewords g') : g'.IsPopulated d ↔ g.IsPopulated d := by
  unfold IsPopulated
  rw [h.group]

/-- Nobody's values are there to expand the templates of a grant with, and nobody needs its
scope. -/
theorem Rewords.isValid (h : g.Rewords g') (hvacant : ¬ g.IsPopulated d)
    (hg : g.IsValid d authorities k) : g'.IsValid d authorities k where
  kind := h.privilege.trans hg.kind
  required := fun q hq => (h.gives q).mpr (hg.required q hq)
  taken := fun q hq => hg.taken q ((h.gives q).mp hq)
  principals := fun hk hnone => hg.principals hk (h.principals.mp hnone)
  authority := by
    unfold FindsAuthority
    rw [h.authority]
    exact hg.authority
  lifespan := by
    unfold Lasts
    rw [h.lifespan]
    exact hg.lifespan
  members := by
    obtain ⟨group, hgroup, -⟩ := hg.members
    refine ⟨group, by rw [h.group, hgroup], ?_⟩
    intro principal a hmember _
    exact absurd ⟨group, principal, hgroup, hmember⟩ hvacant

theorem Rewords.exists_isValid_iff (h : g.Rewords g') (hvacant : ¬ g.IsPopulated d) :
    (∃ k, g'.IsValid d authorities k) ↔ ∃ k, g.IsValid d authorities k := by
  have hvacant' : ¬ g'.IsPopulated d := fun hg' => hvacant (h.isPopulated_iff.mp hg')
  constructor
  · rintro ⟨k, hk⟩
    exact ⟨k, h.symm.isValid hvacant' hk⟩
  · rintro ⟨k, hk⟩
    exact ⟨k, h.isValid hvacant hk⟩

end
end Grant

/-! ### What is checked when a configuration is compiled -/

section
variable {d : Directory} {authorities : Authorities} {grants : NameMap Grant}
variable {groups : Groups} {accounts : List AccountConfig}

/-- Scopes and templates are checked for the members of a grant's group, and for nobody else. -/
structure ChecksMembers (d : Directory) (authorities : Authorities) (grants : NameMap Grant) :
    Prop where
  /-- If all grants are accepted, those of groups with members are coherent. -/
  coherent : ∀ compiled, compileGrants d authorities grants = .ok compiled →
    ∀ api g, grants.find? api = some g → g.IsPopulated d → g.IsCoherent d
  /-- Whether they are accepted does not depend on what a grant of a group without members says as
  its scope and in its templates. -/
  unseen : ∀ api g g', grants.find? api = some g → ¬ g.IsPopulated d → g.Rewords g' →
    ((∃ compiled, compileGrants d authorities (grants.insert api g') = .ok compiled) ↔
      ∃ compiled, compileGrants d authorities grants = .ok compiled)

/-- **Scopes and templates are checked member by member**, for every directory that comes from a
configuration. -/
theorem checksMembers_of_config (hd : Directory.ofConfig groups accounts = .ok d)
    (authorities : Authorities) (grants : NameMap Grant) :
    ChecksMembers d authorities grants := by
  constructor
  · intro compiled hcompiled api g hg hpopulated
    obtain ⟨k, hvalid⟩ := (exists_compileGrants_iff hd).mp ⟨compiled, hcompiled⟩ api g hg
    exact hvalid.isCoherent hd hpopulated
  · intro api g g' hg hvacant hrewords
    have hsame : (∃ k, g'.IsValid d authorities k) ↔ ∃ k, g.IsValid d authorities k :=
      hrewords.exists_isValid_iff hvacant
    rw [exists_compileGrants_iff hd, exists_compileGrants_iff hd]
    constructor
    · intro h name found hfound
      by_cases hname : name = api
      · subst hname
        rw [hg] at hfound
        cases hfound
        exact hsame.mp (h name g' (by rw [NameMap.find?_insert, if_pos rfl]))
      · exact h name found (by rw [NameMap.find?_insert, if_neg hname, hfound])
    · intro h name found hfound
      rw [NameMap.find?_insert] at hfound
      by_cases hname : name = api
      · rw [if_pos hname] at hfound
        cases hfound
        exact hsame.mpr (h api g hg)
      · rw [if_neg hname] at hfound
        exact h name found hfound

theorem checksMembers_of_greeting : ∃ d compiled,
    Directory.ofConfig Engine.greetingGroups [Engine.greeted] = .ok d ∧
    compileGrants d ∅ Engine.greetingGrants = .ok compiled ∧
    ChecksMembers d ∅ Engine.greetingGrants := by
  have hsome : ((Directory.ofConfig Engine.greetingGroups [Engine.greeted]).toOption.bind
      (fun d => (compileGrants d ∅ Engine.greetingGrants).toOption)).isSome = true := by
    decide +kernel
  obtain ⟨d, compiled, hd, hc⟩ := exists_ok_of_isSome hsome
  exact ⟨d, compiled, hd, hc, checksMembers_of_config hd ∅ Engine.greetingGrants⟩

end

/-! ### A group that nobody is in yet -/

/-- Keepers, of whom there are none. -/
def keeperGroups : Groups := NameMap.ofList [("keepers", ⟨none⟩)]

/-- Contents with a bracket that is never closed. -/
def openGrant : Grant := { (default : Grant) with
  group := "keepers", privilege := "construct-configuration", contents := some "(" }

/-- A scope that is no group. -/
def lostGrant : Grant := { (default : Grant) with
  group := "keepers", privilege := "impersonate", scope := some "nobody" }

def keeperGrants : NameMap Grant := NameMap.ofList [("motd", openGrant), ("switch", lostGrant)]

theorem not_isCoherent_openGrant (d : Directory) : ¬ openGrant.IsCoherent d := by
  intro h
  have hpaired := (h.paired "(" (by decide)).count_eq
  exact absurd hpaired (by decide)

theorem not_isCoherent_lostGrant {d : Directory} (hd : Directory.ofConfig keeperGroups [] = .ok d) :
    ¬ lostGrant.IsCoherent d := by
  intro h
  obtain ⟨name, group, hname, hgroup⟩ := h.scope .impersonate rfl (.inr rfl)
  cases hname
  have hknown := ((Directory.flattens_ofConfig hd).group_iff "nobody").mp ⟨group, hgroup⟩
  exact absurd hknown (by decide +kernel)

/-- Grants of a group that nobody is in are accepted with a bracket that is never closed and with a
scope that is no group. -/
theorem keepers_compiled_unchecked : ∃ d, Directory.ofConfig keeperGroups [] = .ok d ∧
    (∃ compiled, compileGrants d ∅ keeperGrants = .ok compiled) ∧
    (keeperGrants.find? "motd" = some openGrant ∧ ¬ openGrant.IsCoherent d) ∧
    keeperGrants.find? "switch" = some lostGrant ∧ ¬ lostGrant.IsCoherent d := by
  have hsome : ((Directory.ofConfig keeperGroups []).toOption.bind
      (fun d => (compileGrants d ∅ keeperGrants).toOption)).isSome = true := by decide +kernel
  obtain ⟨d, compiled, hd, hc⟩ := exists_ok_of_isSome hsome
  refine ⟨d, hd, ⟨compiled, hc⟩, ⟨by decide +kernel, not_isCoherent_openGrant d⟩,
    by decide +kernel, not_isCoherent_lostGrant hd⟩

end CredentialServer
