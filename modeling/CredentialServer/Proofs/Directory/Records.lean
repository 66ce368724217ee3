import CredentialServer.Proofs.Directory.Validity

/-! # What a directory keeps

A directory is built once and then only looked up.  `Represents` says what each look-up answers in
terms of the configuration alone: the members of a group are found by parents from the accounts' own
groups, and the account of a principal has what its record says (`Account.Records`).  Main statement:
`represents_ofConfig`. -/

namespace CredentialServer

/-! ### Accounts and their records -/

/-- An account has what a record says. -/
structure Account.Records (c : AccountConfig) (a : Account) : Prop where
  principal : a.principal = c.principal
  group : a.group = c.group
  disableDirectAuth : a.disableDirectAuth = c.disableDirectAuth
  /-- A limit is the address in the metadata, if the record asks for one. -/
  limit_iff : ∀ address, a.limit = some address ↔
    c.limitAddress = true ∧ c.address? = some address
  /-- Who asks for a limit has one. -/
  limited : c.limitAddress = true → ∃ address, a.limit = some address
  /-- The principal is a variable, and the others are as they are configured. -/
  metadata : ∀ key, a.metadata.find? key =
    if key = "principal" then some c.principal else c.metadata.find? key

theorem Account.records_of_ofConfig {c : AccountConfig} {a : Account}
    (h : Account.ofConfig c = .ok a) : a.Records c := by
  obtain ⟨-, hprincipal, hgroup, hdirect, hmetadata, hlimited, hunlimited⟩ := ofConfig_eq_ok h
  refine ⟨hprincipal, hgroup, hdirect, ?_, ?_, ?_⟩
  · intro address
    cases hlimit : c.limitAddress with
    | false =>
        rw [hunlimited hlimit]
        simp
    | true =>
        obtain ⟨found, hfound, hparse⟩ := hlimited hlimit
        rw [Directory.parse?_limitText] at hparse
        rw [hfound, hparse]
        simp
  · intro hlimit
    obtain ⟨found, hfound, -⟩ := hlimited hlimit
    exact ⟨found, hfound⟩
  · intro key
    rw [hmetadata, NameMap.find?_insert]

namespace Directory

def HasMember (d : Directory) (name principal : String) : Prop :=
  ∃ g, d.group name = .ok g ∧ g.hasMember principal = true

/-- What a directory answers, told by its configuration. -/
structure Represents (groups : Groups) (accounts : List AccountConfig) (d : Directory) : Prop where
  /-- Just the configured groups are found. -/
  group_iff : ∀ name, (∃ g, d.group name = .ok g) ↔ groups.contains name = true
  /-- A group is found under its own name. -/
  name_eq : ∀ name g, d.group name = .ok g → g.name = name
  /-- The members of a group are the principals whose own group is this one or below it. -/
  member_iff : ∀ name principal, d.HasMember name principal ↔
    ∃ c ∈ accounts, c.principal = principal ∧
      ∃ own, c.group = some own ∧ groups.IsAncestor own name
  /-- Every member has an account. -/
  known : ∀ name principal, d.HasMember name principal → ∃ a, d.account principal = .ok a
  /-- Every principal of the list has its account. -/
  listed : ∀ c ∈ accounts, ∃ a, d.account c.principal = .ok a ∧ a.Records c
  /-- No other principal has one. -/
  unlisted : ∀ principal, (∀ c ∈ accounts, c.principal ≠ principal) →
    d.account principal = .error (.unknownAccount principal)
  /-- No account is kept for another principal. -/
  matched : ∀ principal expected found,
    d.account principal ≠ .error (.principalMismatch expected found)

/-! ### Look-ups -/

section
variable {groups : Groups} {accounts : List AccountConfig} {d : Directory} {principal : String}

theorem find?_accounts_iff (h : ofConfig groups accounts = .ok d) {a : Account} :
    d.accounts.find? principal = some a ↔
      a.principal = principal ∧ ∃ c ∈ accounts, Account.ofConfig c = .ok a := by
  obtain ⟨-, draft, hdraft, rfl⟩ := ofConfig_eq_ok h
  have hflat := flat_addAccounts (flat_start groups) hdraft
  exact hflat.accounts principal a

/-- An account is found just for the principals of the list, and there is no other way to fail. -/
theorem account_of_ofConfig (h : ofConfig groups accounts = .ok d) (principal : String) :
    (∃ a, d.account principal = .ok a ∧ ∃ c ∈ accounts, Account.ofConfig c = .ok a) ∨
      d.account principal = .error (.unknownAccount principal) := by
  unfold account
  cases hfind : d.accounts.find? principal with
  | none => exact .inr rfl
  | some a =>
      obtain ⟨hprincipal, hconfig⟩ := (find?_accounts_iff h).mp hfind
      refine .inl ⟨a, ?_, hconfig⟩
      simp only [if_pos hprincipal]

theorem exists_group_of_isAncestor (h : ofConfig groups accounts = .ok d) {c : AccountConfig}
    (hc : c ∈ accounts) {own name : String} (hown : c.group = some own)
    (hname : groups.IsAncestor own name) : ∃ g, d.group name = .ok g := by
  have hvalid := exists_ofConfig_iff.mp ⟨d, h⟩
  apply ((flattens_ofConfig h).group_iff name).mpr
  exact hvalid.parents.contains_of_isAncestor (hvalid.known c hc own hown) hname

theorem hasMember_iff (h : ofConfig groups accounts = .ok d) {name : String} :
    d.HasMember name principal ↔ ∃ c ∈ accounts, c.principal = principal ∧
      ∃ own, c.group = some own ∧ groups.IsAncestor own name := by
  have hflat := flattens_ofConfig h
  constructor
  · rintro ⟨g, hg, hmember⟩
    obtain ⟨a, ha, own, hown, habove⟩ := (hflat.hasMember_iff name g hg principal).mp hmember
    obtain ⟨hprincipal, c, hc, hconfig⟩ := (hflat.account_iff principal a).mp ha
    have hrecords := Account.records_of_ofConfig hconfig
    refine ⟨c, hc, ?_, own, ?_, habove⟩
    · rw [← hrecords.principal, hprincipal]
    · rw [← hrecords.group, hown]
  · rintro ⟨c, hc, hprincipal, own, hown, habove⟩
    obtain ⟨g, hg⟩ := exists_group_of_isAncestor h hc hown habove
    obtain ⟨a, hconfig⟩ := hflat.valid c hc
    have hrecords := Account.records_of_ofConfig hconfig
    refine ⟨g, hg, (hflat.hasMember_iff name g hg principal).mpr ⟨a, ?_, own, ?_, habove⟩⟩
    · exact (hflat.account_iff principal a).mpr ⟨hrecords.principal.trans hprincipal, c, hc, hconfig⟩
    · rw [hrecords.group, hown]

/-- **A directory represents its configuration.** -/
theorem represents_ofConfig (h : ofConfig groups accounts = .ok d) :
    d.Represents groups accounts := by
  have hflat := flattens_ofConfig h
  refine ⟨hflat.group_iff, hflat.name_eq, fun _ _ => hasMember_iff h, ?_, ?_, ?_, ?_⟩
  · rintro name principal ⟨g, hg, hmember⟩
    obtain ⟨a, ha, -⟩ := (hflat.hasMember_iff name g hg principal).mp hmember
    exact ⟨a, ha⟩
  · intro c hc
    obtain ⟨a, hconfig⟩ := hflat.valid c hc
    have hrecords := Account.records_of_ofConfig hconfig
    exact ⟨a, (hflat.account_iff _ a).mpr ⟨hrecords.principal, c, hc, hconfig⟩, hrecords⟩
  · intro principal hnone
    rcases account_of_ofConfig h principal with ⟨a, ha, -⟩ | herror
    · obtain ⟨hprincipal, c, hc, hconfig⟩ := (hflat.account_iff principal a).mp ha
      have hrecords := Account.records_of_ofConfig hconfig
      exact absurd (hrecords.principal.symm.trans hprincipal) (hnone c hc)
    · exact herror
  · intro principal expected found herror
    rcases account_of_ofConfig h principal with ⟨a, ha, -⟩ | hunknown
    · rw [ha] at herror
      cases herror
    · rw [hunknown] at herror
      cases herror

def branchGroups : Groups := .ofList [("operators", ⟨some "staff"⟩), ("staff", ⟨none⟩)]

/-- An operator who calls herself something else in her metadata and is limited to her address, and
a guest without group. -/
def branchAccounts : List AccountConfig := [
  { principal := "ada"
    group := some "operators"
    disableDirectAuth := false
    limitAddress := true
    metadata := .ofList [("ip", "10.0.0.7"), ("principal", "eve")] },
  { principal := "guest"
    group := none
    disableDirectAuth := true
    limitAddress := false
    metadata := ∅ }]

theorem represents_branch : ∃ d, ofConfig branchGroups branchAccounts = .ok d ∧
    d.Represents branchGroups branchAccounts ∧ d.HasMember "staff" "ada" ∧
    d.account "eve" = .error (.unknownAccount "eve") := by
  have hvalid : WellFormed branchGroups branchAccounts :=
    faults_eq_nil_iff.mp (by decide +kernel)
  obtain ⟨d, hd⟩ := exists_ofConfig_iff.mpr hvalid
  have hrepresents := represents_ofConfig hd
  refine ⟨d, hd, hrepresents, ?_, ?_⟩
  · refine (hrepresents.member_iff _ _).mpr ⟨_, List.mem_cons_self, rfl, "operators", rfl, ?_⟩
    exact .step (by decide +kernel) (.refl "staff")
  · exact hrepresents.unlisted "eve" (by decide +kernel)

end
end Directory
end CredentialServer
