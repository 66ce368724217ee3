import CredentialServer.Directory.Basic

/-! # Who belongs to which group

An account belongs to its own group and to every group above it.  A directory keeps no parents: it
lists all members of each group, and the list was made by following the parents of one account after
the other.  `Draft.Flat` is the invariant of that loop; one account keeps it (`flat_addAccount`),
hence all do (`flat_addAccounts`).  Main statement: `flattens_ofConfig`, which says that a finished
directory lists just the accounts that belong to a group. -/

namespace CredentialServer

/-! ### Walks that end -/

namespace Groups

theorem mem_met_of_mem {groups : Groups} {met : List String} {name g : String} (hg : g ∈ met) :
    g ∈ (walkFrom groups met name).met := by
  fun_induction walkFrom groups met name with
  | case1 met name h => exact hg
  | case2 met name h hp => exact List.mem_cons_of_mem _ hg
  | case3 met name h parent hp ih => exact ih (List.mem_cons_of_mem _ hg)

/-- A walk that does not come back meets every group above the first. -/
theorem mem_met_of_isAncestor {groups : Groups} {met : List String} {name g : String}
    (hloop : (walkFrom groups met name).isLoop = false) (h : groups.IsAncestor name g) :
    g ∈ (walkFrom groups met name).met := by
  fun_induction walkFrom groups met name with
  | case1 met name hm => cases hloop
  | case2 met name hm hp =>
      cases h with
      | refl => exact List.mem_cons_self
      | step hstep r =>
          rw [hp] at hstep
          cases hstep
  | case3 met name hm parent hp ih =>
      cases h with
      | refl => exact mem_met_of_mem List.mem_cons_self
      | step hstep r =>
          rw [hp] at hstep
          cases hstep
          exact ih hloop r

theorem mem_lineage_iff {groups : Groups} {name g : String}
    (hloop : (walk groups name).isLoop = false) :
    g ∈ lineage groups name ↔ groups.IsAncestor name g := by
  constructor
  · exact isAncestor_of_mem_lineage
  · intro h
    unfold lineage
    rw [List.mem_reverse]
    exact mem_met_of_isAncestor hloop h

theorem isLoop_walk_of_parent?_eq_none {groups : Groups} {name : String}
    (h : groups.parent? name = none) : (walk groups name).isLoop = false := by
  unfold walk
  fun_cases walkFrom groups [] name with
  | case1 hm => cases hm
  | case2 hm hp => rfl
  | case3 hm parent hp =>
      rw [hp] at h
      cases h

end Groups

/-- An account belongs to its own group and to those above it. -/
def Account.BelongsTo (groups : Groups) (a : Account) (name : String) : Prop :=
  ∃ own, a.group = some own ∧ groups.IsAncestor own name

namespace Directory

theorem checkLoops_eq_ok_iff {groups : Groups} {names : List String} :
    checkLoops groups names = .ok () ↔ ∀ name ∈ names, (groups.walk name).isLoop = false := by
  induction names with
  | nil => simp [checkLoops]
  | cons name names ih =>
      unfold checkLoops
      rw [List.forall_mem_cons, ← ih]
      cases (groups.walk name).isLoop <;> simp

theorem isLoop_walk_of_checkLoops {groups : Groups} (h : checkLoops groups groups.names = .ok ())
    (name : String) : (groups.walk name).isLoop = false := by
  cases hp : groups.parent? name with
  | none => exact Groups.isLoop_walk_of_parent?_eq_none hp
  | some parent => exact checkLoops_eq_ok_iff.mp h name (Groups.mem_names_of_parent hp)

theorem mem_groupsOf_iff {groups : Groups} (h : checkLoops groups groups.names = .ok ())
    {a : Account} {name : String} : name ∈ groupsOf groups a ↔ a.BelongsTo groups name := by
  unfold groupsOf Account.BelongsTo
  cases a.group with
  | none => simp
  | some own =>
      rw [Groups.mem_lineage_iff (isLoop_walk_of_checkLoops h own)]
      simp

/-! ### Making a principal a member -/

/-- A group has a member, as far as the tables go. -/
def Members.Lists (members : Members) (name principal : String) : Prop :=
  ∃ set, members.find? name = some set ∧ set.contains principal = true

theorem contains_add (set : NameSet) (principal p : String) :
    (set.add principal).contains p = true ↔ p = principal ∨ set.contains p = true := by
  unfold NameMap.contains NameSet.add
  rw [NameMap.find?_insert]
  by_cases h : p = principal <;> simp [h]

theorem lists_insert_add {members : Members} {name : String} {set : NameSet}
    (h : members.find? name = some set) (principal n p : String) :
    Members.Lists (members.insert name (set.add principal)) n p ↔
      (n = name ∧ p = principal) ∨ members.Lists n p := by
  unfold Members.Lists
  rw [NameMap.find?_insert]
  by_cases hn : n = name
  · subst hn
    rw [if_pos rfl, h]
    simp only [Option.some.injEq, exists_eq_left', contains_add, true_and]
  · rw [if_neg hn]
    simp only [hn, false_and, false_or]

theorem lists_enrol {principal : String} {names : List String} {members result : Members}
    (h : enrol principal names members = .ok result) (n p : String) :
    result.Lists n p ↔ (n ∈ names ∧ p = principal) ∨ members.Lists n p := by
  induction names generalizing members with
  | nil =>
      cases h
      simp
  | cons name names ih =>
      unfold enrol at h
      cases hf : members.find? name with
      | none =>
          rw [hf] at h
          cases h
      | some set =>
          rw [hf] at h
          rw [ih h, lists_insert_add hf, List.mem_cons, or_and_right, or_assoc, or_left_comm]

theorem contains_enrol {principal : String} {names : List String} {members result : Members}
    (h : enrol principal names members = .ok result) (n : String) :
    result.contains n = members.contains n := by
  induction names generalizing members with
  | nil =>
      cases h
      rfl
  | cons name names ih =>
      unfold enrol at h
      cases hf : members.find? name with
      | none =>
          rw [hf] at h
          cases h
      | some set =>
          rw [hf] at h
          rw [ih h]
          unfold NameMap.contains
          rw [NameMap.find?_insert]
          by_cases hn : n = name
          · rw [if_pos hn, hn, hf]
            rfl
          · rw [if_neg hn]

/-! ### The loop over accounts -/

/-- The tables after some accounts: they have just these accounts, each is a member of the groups of
its lineage, and the groups are those of the configuration. -/
structure Draft.Flat (groups : Groups) (done : List AccountConfig) (draft : Draft) : Prop where
  accounts : ∀ p a, draft.accounts.find? p = some a ↔
    a.principal = p ∧ ∃ c ∈ done, Account.ofConfig c = .ok a
  valid : ∀ c ∈ done, ∃ a, Account.ofConfig c = .ok a
  members : ∀ n p, draft.members.Lists n p ↔
    ∃ a, draft.accounts.find? p = some a ∧ n ∈ groupsOf groups a
  names : ∀ n, draft.members.contains n = groups.contains n

theorem flat_start (groups : Groups) : (Draft.start groups).Flat groups [] := by
  refine ⟨?_, ?_, ?_, ?_⟩
  · intro p a
    show NameMap.find? NameMap.empty p = some a ↔ _
    simp
  · intro c hc
    cases hc
  · intro n p
    constructor
    · rintro ⟨set, hset, hp⟩
      unfold Draft.start at hset
      rw [NameMap.find?_map, Option.map_eq_some_iff] at hset
      obtain ⟨_, _, rfl⟩ := hset
      cases hp
    · rintro ⟨a, ha, _⟩
      cases ha
  · intro n
    unfold Draft.start NameMap.contains
    rw [NameMap.find?_map, Option.isSome_map]

theorem addAccount_eq_ok {groups : Groups} {draft result : Draft} {c : AccountConfig}
    (h : addAccount groups draft c = .ok result) :
    ∃ a members, Account.ofConfig c = .ok a ∧ draft.accounts.find? a.principal = none ∧
      enrol a.principal (groupsOf groups a) draft.members = .ok members ∧
      result = ⟨draft.accounts.insert a.principal a, members⟩ := by
  unfold addAccount at h
  cases ha : Account.ofConfig c with
  | error e =>
      rw [ha] at h
      cases h
  | ok a =>
      rw [ha] at h
      simp only at h
      split at h
      · cases h
      · next hfree =>
        split at h
        · cases h
        · next members hm =>
          cases h
          refine ⟨a, members, rfl, ?_, hm, rfl⟩
          simpa [NameMap.contains] using hfree

theorem flat_addAccount {groups : Groups} {done : List AccountConfig} {draft result : Draft}
    {c : AccountConfig} (hd : draft.Flat groups done)
    (h : addAccount groups draft c = .ok result) : result.Flat groups (done ++ [c]) := by
  obtain ⟨a, members, ha, hfree, hm, rfl⟩ := addAccount_eq_ok h
  have find : ∀ p, (draft.accounts.insert a.principal a).find? p =
      if p = a.principal then some a else draft.accounts.find? p :=
    NameMap.find?_insert _ _ _
  refine ⟨?_, ?_, ?_, ?_⟩
  · intro p b
    simp only [find, List.mem_append, List.mem_singleton]
    by_cases hp : p = a.principal
    · rw [if_pos hp]
      constructor
      · intro hb
        cases hb
        exact ⟨hp.symm, c, .inr rfl, ha⟩
      · rintro ⟨hb, c', hc' | rfl, hc⟩
        · have := (hd.accounts p b).mpr ⟨hb, c', hc', hc⟩
          rw [hp, hfree] at this
          cases this
        · rw [ha] at hc
          cases hc
          rfl
    · rw [if_neg hp, hd.accounts]
      constructor
      · rintro ⟨hb, c', hc', hc⟩
        exact ⟨hb, c', .inl hc', hc⟩
      · rintro ⟨hb, c', hc' | rfl, hc⟩
        · exact ⟨hb, c', hc', hc⟩
        · rw [ha] at hc
          cases hc
          exact absurd hb.symm hp
  · intro c' hc'
    rcases List.mem_append.mp hc' with hc' | hc'
    · exact hd.valid c' hc'
    · obtain rfl := List.mem_singleton.mp hc'
      exact ⟨a, ha⟩
  · intro n p
    rw [lists_enrol hm, hd.members]
    simp only [find]
    by_cases hp : p = a.principal
    · rw [if_pos hp, hp, hfree]
      simp
    · rw [if_neg hp]
      simp [hp]
  · intro n
    rw [contains_enrol hm, hd.names]

theorem flat_addAccounts {groups : Groups} {done rest : List AccountConfig} {draft result : Draft}
    (hd : draft.Flat groups done) (h : addAccounts groups draft rest = .ok result) :
    result.Flat groups (done ++ rest) := by
  induction rest generalizing done draft with
  | nil =>
      cases h
      rw [List.append_nil]
      exact hd
  | cons c rest ih =>
      unfold addAccounts at h
      cases hc : addAccount groups draft c with
      | error e =>
          rw [hc] at h
          cases h
      | ok next =>
          rw [hc] at h
          have := ih (flat_addAccount hd hc) h
          rwa [List.append_assoc] at this

/-! ### Finished directories -/

theorem account_eq_ok_iff {d : Directory} {p : String} {a : Account} :
    d.account p = .ok a ↔ d.accounts.find? p = some a ∧ a.principal = p := by
  unfold account
  cases d.accounts.find? p with
  | none => simp
  | some b =>
      by_cases hb : b.principal = p
      · simp only [if_pos hb, Except.ok.injEq, Option.some.injEq]
        constructor
        · rintro rfl
          exact ⟨rfl, hb⟩
        · exact And.left
      · simp only [if_neg hb, reduceCtorEq, Option.some.injEq, false_iff]
        rintro ⟨rfl, ha⟩
        exact hb ha

theorem group_eq_ok_iff {d : Directory} {n : String} {g : Group} :
    d.group n = .ok g ↔ d.groups.find? n = some g := by
  unfold group
  cases d.groups.find? n <;> simp

/-- A directory has the accounts and the groups of a configuration, and a group lists just the
accounts that belong to it. -/
structure Flattens (groups : Groups) (accounts : List AccountConfig) (d : Directory) : Prop where
  account_iff : ∀ p a, d.account p = .ok a ↔
    a.principal = p ∧ ∃ c ∈ accounts, Account.ofConfig c = .ok a
  valid : ∀ c ∈ accounts, ∃ a, Account.ofConfig c = .ok a
  group_iff : ∀ n, (∃ g, d.group n = .ok g) ↔ groups.contains n = true
  name_eq : ∀ n g, d.group n = .ok g → g.name = n
  hasMember_iff : ∀ n g, d.group n = .ok g → ∀ p,
    g.hasMember p = true ↔ ∃ a, d.account p = .ok a ∧ a.BelongsTo groups n

theorem group_finish_iff {draft : Draft} {n : String} {g : Group} :
    draft.finish.group n = .ok g ↔ ∃ set, draft.members.find? n = some set ∧ g = ⟨n, set⟩ := by
  rw [group_eq_ok_iff]
  unfold Draft.finish
  rw [NameMap.find?_map, Option.map_eq_some_iff]
  simp only [eq_comm]

theorem flattens_finish {groups : Groups} {accounts : List AccountConfig} {draft : Draft}
    (hloop : checkLoops groups groups.names = .ok ()) (h : draft.Flat groups accounts) :
    draft.finish.Flattens groups accounts := by
  have haccount : ∀ p a, draft.finish.account p = .ok a ↔ draft.accounts.find? p = some a := by
    intro p a
    rw [account_eq_ok_iff]
    exact and_iff_left_of_imp (fun ha => ((h.accounts p a).mp ha).1)
  refine ⟨?_, h.valid, ?_, ?_, ?_⟩
  · intro p a
    rw [haccount, h.accounts]
  · intro n
    rw [← h.names, NameMap.contains, Option.isSome_iff_exists]
    constructor
    · rintro ⟨g, hg⟩
      obtain ⟨set, hset, -⟩ := group_finish_iff.mp hg
      exact ⟨set, hset⟩
    · rintro ⟨set, hset⟩
      exact ⟨⟨n, set⟩, group_finish_iff.mpr ⟨set, hset, rfl⟩⟩
  · intro n g hg
    obtain ⟨set, -, rfl⟩ := group_finish_iff.mp hg
    rfl
  · intro n g hg p
    obtain ⟨set, hset, rfl⟩ := group_finish_iff.mp hg
    have hlists : (Group.mk n set).hasMember p = true ↔ draft.members.Lists n p := by
      unfold Members.Lists
      rw [hset]
      simp [Group.hasMember]
    rw [hlists, h.members]
    simp only [haccount, mem_groupsOf_iff hloop]

theorem ofConfig_eq_ok {groups : Groups} {accounts : List AccountConfig} {d : Directory}
    (h : ofConfig groups accounts = .ok d) : checkLoops groups groups.names = .ok () ∧
      ∃ draft, addAccounts groups (.start groups) accounts = .ok draft ∧ d = draft.finish := by
  simp only [ofConfig, bind, Except.bind] at h
  split at h
  · cases h
  split at h
  · cases h
  next hloop =>
  split at h
  · cases h
  next draft hdraft =>
  cases h
  exact ⟨hloop, draft, hdraft, rfl⟩

/-- **A directory is its configuration, flattened.** -/
theorem flattens_ofConfig {groups : Groups} {accounts : List AccountConfig} {d : Directory}
    (h : ofConfig groups accounts = .ok d) : d.Flattens groups accounts := by
  obtain ⟨hloop, draft, hdraft, rfl⟩ := ofConfig_eq_ok h
  have := flat_addAccounts (flat_start groups) hdraft
  rw [List.nil_append] at this
  exact flattens_finish hloop this

end Directory
end CredentialServer
