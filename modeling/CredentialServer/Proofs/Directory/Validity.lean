import CredentialServer.Proofs.Directory.Flattening

/-! # Which directories can be built

Groups and accounts can be wrong in many ways at once.  `faults` lists all that is wrong with them,
in the order in which it is looked for: first the groups by name, then their lines of parents, then
the accounts as they are listed.  A line of parents is wrong if it repeats a group, which is said of
the line itself (`Groups.Repeats`) and found by a walk (`isLoop_walk_iff`).  Main statements:
`map_ofConfig` (a directory is refused with the first fault, or built if there is none) and
`judges_ofConfig`. -/

namespace CredentialServer

/-! ### Lines of parents -/

namespace Groups

/-- The group that stands so many parents above another. -/
def above? (groups : Groups) (name : String) : Nat → Option String
  | 0 => some name
  | n + 1 => (groups.parent? name).bind (fun parent => above? groups parent n)

/-- The line of parents of a group comes back: one group stands at two places. -/
def Repeats (groups : Groups) (name : String) : Prop :=
  ∃ i j g, i < j ∧ groups.above? name i = some g ∧ groups.above? name j = some g

variable {groups : Groups} {name parent : String}

theorem above?_succ_of_parent (h : groups.parent? name = some parent) (n : Nat) :
    groups.above? name (n + 1) = groups.above? parent n := by
  rw [above?, h, Option.bind_some]

theorem above?_succ_of_none (h : groups.parent? name = none) (n : Nat) :
    groups.above? name (n + 1) = none := by
  rw [above?, h, Option.bind_none]

theorem not_repeats_of_none (h : groups.parent? name = none) : ¬ groups.Repeats name := by
  rintro ⟨i, j, g, hij, -, hj⟩
  obtain ⟨n, rfl⟩ : ∃ n, j = n + 1 := ⟨j - 1, by omega⟩
  rw [above?_succ_of_none h] at hj
  cases hj

/-- The line from a group repeats one just if the line from its parent comes back to the group or
repeats one itself. -/
theorem repeats_iff_of_parent (h : groups.parent? name = some parent) :
    groups.Repeats name ↔ (∃ n, groups.above? parent n = some name) ∨ groups.Repeats parent := by
  constructor
  · rintro ⟨i, j, g, hij, hi, hj⟩
    obtain ⟨n, rfl⟩ : ∃ n, j = n + 1 := ⟨j - 1, by omega⟩
    rw [above?_succ_of_parent h] at hj
    cases i with
    | zero =>
        cases hi
        exact .inl ⟨n, hj⟩
    | succ i =>
        rw [above?_succ_of_parent h] at hi
        exact .inr ⟨i, n, g, by omega, hi, hj⟩
  · rintro (⟨n, hn⟩ | ⟨i, j, g, hij, hi, hj⟩)
    · refine ⟨0, n + 1, name, by omega, rfl, ?_⟩
      rw [above?_succ_of_parent h, hn]
    · refine ⟨i + 1, j + 1, g, by omega, ?_, ?_⟩
      · rw [above?_succ_of_parent h, hi]
      · rw [above?_succ_of_parent h, hj]

/-- A walk finds a loop just if the line ahead of it comes to a group that it met before, or repeats
one itself. -/
theorem isLoop_walkFrom_iff {met : List String} : (walkFrom groups met name).isLoop = true ↔
    (∃ n g, groups.above? name n = some g ∧ g ∈ met) ∨ groups.Repeats name := by
  fun_induction walkFrom groups met name with
  | case1 met name hmet => exact iff_of_true rfl (.inl ⟨0, name, rfl, hmet⟩)
  | case2 met name hmet hnone =>
      refine iff_of_false Bool.false_ne_true ?_
      rintro (⟨n, g, hn, hg⟩ | hrepeats)
      · cases n with
        | zero =>
            cases hn
            exact hmet hg
        | succ n =>
            rw [above?_succ_of_none hnone] at hn
            cases hn
      · exact not_repeats_of_none hnone hrepeats
  | case3 met name hmet parent hparent ih =>
      rw [ih, repeats_iff_of_parent hparent]
      constructor
      · rintro (⟨n, g, hn, hg⟩ | hrepeats)
        · rcases List.mem_cons.mp hg with rfl | hg
          · exact .inr (.inl ⟨n, hn⟩)
          · exact .inl ⟨n + 1, g, by rw [above?_succ_of_parent hparent, hn], hg⟩
        · exact .inr (.inr hrepeats)
      · rintro (⟨n, g, hn, hg⟩ | ⟨n, hn⟩ | hrepeats)
        · cases n with
          | zero =>
              cases hn
              exact absurd hg hmet
          | succ n =>
              rw [above?_succ_of_parent hparent] at hn
              exact .inl ⟨n, g, hn, List.mem_cons_of_mem _ hg⟩
        · exact .inl ⟨n, name, hn, List.mem_cons_self⟩
        · exact .inr hrepeats

/-- A walk finds a loop just if the line of parents repeats a group. -/
theorem isLoop_walk_iff : (groups.walk name).isLoop = true ↔ groups.Repeats name := by
  unfold walk
  rw [isLoop_walkFrom_iff]
  simp

instance (groups : Groups) : DecidablePred groups.Repeats :=
  fun _ => decidable_of_iff _ isLoop_walk_iff

theorem lineage_of_find?_eq_none (h : groups.find? name = none) :
    groups.lineage name = [name] := by
  have hnone : groups.parent? name = none := by
    unfold parent?
    rw [h]
    rfl
  unfold lineage walk
  fun_cases walkFrom groups [] name with
  | case1 hmet => cases hmet
  | case2 _ _ => rfl
  | case3 _ parent hparent =>
      rw [hnone] at hparent
      cases hparent

end Groups

/-! ### What can be wrong -/

/-- The address in the metadata of an account, if there is one that can be read. -/
def AccountConfig.address? (c : AccountConfig) : Option Address :=
  (c.metadata.find? "ip").bind Address.parse?

namespace Directory

/-- An error, unless a condition holds. -/
def faultUnless (p : Prop) [Decidable p] (e : DirectoryError) : List DirectoryError :=
  if p then [] else [e]

def groupFaults (groups : Groups) (name : String) (g : GroupConfig) : List DirectoryError :=
  faultUnless (name ≠ "") .emptyGroupName ++
    g.parent.toList.flatMap (fun parent =>
      faultUnless (groups.contains parent = true) (.unknownParent name parent))

/-- What is wrong with an account by itself. -/
def recordFaults (c : AccountConfig) : List DirectoryError :=
  faultUnless (c.principal ≠ "") .emptyPrincipal ++
    faultUnless (c.limitAddress = true → c.address?.isSome = true)
      (.invalidLimit c.principal (Account.limitText c))

/-- What is wrong with an account behind others. -/
def accountFaults (groups : Groups) (earlier : List AccountConfig) (c : AccountConfig) :
    List DirectoryError :=
  recordFaults c ++
    faultUnless (∀ other ∈ earlier, other.principal ≠ c.principal)
      (.duplicateAccount c.principal) ++
    c.group.toList.flatMap (fun name =>
      faultUnless (groups.contains name = true) (.unknownGroup name))

/-- What is wrong with the accounts of a list, which come behind others. -/
def listFaults (groups : Groups) : List AccountConfig → List AccountConfig → List DirectoryError
  | _, [] => []
  | earlier, c :: rest => accountFaults groups earlier c ++ listFaults groups (earlier ++ [c]) rest

/-- All that is wrong with groups and accounts, in order. -/
def faults (groups : Groups) (accounts : List AccountConfig) : List DirectoryError :=
  groups.toList.flatMap (fun e => groupFaults groups e.1 e.2) ++
    groups.names.flatMap (fun name => faultUnless (¬ groups.Repeats name) (.cycle name)) ++
    listFaults groups [] accounts

/-! ### The first fault -/

/-- Fails with the first of some errors. -/
def refuse : List DirectoryError → Except DirectoryError Unit
  | [] => .ok ()
  | e :: _ => .error e

theorem refuse_append (a b : List DirectoryError) :
    refuse (a ++ b) = refuse a >>= fun _ => refuse b := by
  cases a <;> rfl

theorem refuse_unless (p : Prop) [Decidable p] (e : DirectoryError) (rest : List DirectoryError) :
    refuse (faultUnless p e ++ rest) = if p then refuse rest else .error e := by
  unfold faultUnless
  by_cases hp : p
  · rw [if_pos hp, if_pos hp, List.nil_append]
  · rw [if_neg hp, if_neg hp]
    rfl

theorem refuse_eq_ok_iff {l : List DirectoryError} : refuse l = .ok () ↔ l = [] := by
  cases l <;> simp [refuse]

theorem refuse_eq_error_iff {l : List DirectoryError} {e : DirectoryError} :
    refuse l = .error e ↔ l.head? = some e := by
  cases l <;> simp [refuse]

theorem faultUnless_eq_nil_iff {p : Prop} [Decidable p] {e : DirectoryError} :
    faultUnless p e = [] ↔ p := by
  unfold faultUnless
  split <;> simp_all

section
variable {groups : Groups}

/-! ### Groups -/

theorem checkGroups_eq (l : List (String × GroupConfig)) :
    checkGroups groups l = refuse (l.flatMap (fun e => groupFaults groups e.1 e.2)) := by
  induction l with
  | nil => rfl
  | cons e l ih =>
      obtain ⟨name, g⟩ := e
      rw [List.flatMap_cons, groupFaults, List.append_assoc, refuse_unless]
      unfold checkGroups
      by_cases hname : name = ""
      · rw [if_pos hname, if_neg (not_not_intro hname)]
      · rw [if_neg hname, if_pos hname]
        cases g.parent with
        | none => exact ih
        | some parent =>
            rw [Option.toList_some, List.flatMap_singleton, refuse_unless, ih]

theorem checkLoops_eq (names : List String) : checkLoops groups names =
    refuse (names.flatMap (fun name => faultUnless (¬ groups.Repeats name) (.cycle name))) := by
  induction names with
  | nil => rfl
  | cons name names ih =>
      rw [checkLoops, ih, List.flatMap_cons, refuse_unless]
      by_cases hrepeats : groups.Repeats name
      · rw [if_pos (Groups.isLoop_walk_iff.mpr hrepeats), if_neg (not_not_intro hrepeats)]
      · rw [if_neg (fun h => hrepeats (Groups.isLoop_walk_iff.mp h)), if_pos hrepeats]

/-- Every parent is configured. -/
def HasParents (groups : Groups) : Prop :=
  ∀ name parent, groups.parent? name = some parent → groups.contains parent = true

theorem groupFaults_eq_nil_iff {name : String} {g : GroupConfig} :
    groupFaults groups name g = [] ↔
      name ≠ "" ∧ ∀ parent, g.parent = some parent → groups.contains parent = true := by
  unfold groupFaults
  rw [List.append_eq_nil_iff, faultUnless_eq_nil_iff, List.flatMap_eq_nil_iff]
  simp only [Option.mem_toList, faultUnless_eq_nil_iff]

theorem hasParents_of_faults (h : groups.toList.flatMap (fun e => groupFaults groups e.1 e.2) = []) :
    HasParents groups := by
  intro name parent hparent
  unfold Groups.parent? at hparent
  obtain ⟨g, hg, hparent⟩ := Option.bind_eq_some_iff.mp hparent
  have hfaults := List.flatMap_eq_nil_iff.mp h (name, g) ((NameMap.mem_toList_iff groups).mpr hg)
  exact (groupFaults_eq_nil_iff.mp hfaults).2 parent hparent

/-- Where every parent is configured, so is the whole line above a configured group. -/
theorem HasParents.contains_of_isAncestor (hparents : HasParents groups) {name g : String}
    (hname : groups.contains name = true) (h : groups.IsAncestor name g) :
    groups.contains g = true := by
  induction h with
  | refl => exact hname
  | step hstep _ ih => exact ih (hparents _ _ hstep)

/-! ### Accounts -/

theorem parse?_limitText (c : AccountConfig) :
    Address.parse? (Account.limitText c) = c.address? := by
  unfold Account.limitText AccountConfig.address?
  cases c.metadata.find? "ip" with
  | none => decide +kernel
  | some text => rfl

theorem map_ofRecord (c : AccountConfig) :
    (Account.ofConfig c).map (fun _ => ()) = refuse (recordFaults c) := by
  unfold recordFaults Account.ofConfig
  rw [refuse_unless, parse?_limitText, ← List.append_nil (faultUnless (_ → _) _), refuse_unless]
  by_cases hprincipal : c.principal = ""
  · rw [if_pos hprincipal, if_neg (not_not_intro hprincipal)]
    rfl
  · rw [if_neg hprincipal, if_pos hprincipal]
    cases c.limitAddress <;> cases c.address? <;> rfl

theorem exists_enrol (principal : String) {names : List String} {members : Members}
    (h : ∀ name ∈ names, members.contains name = true) :
    ∃ result, enrol principal names members = .ok result := by
  induction names generalizing members with
  | nil => exact ⟨members, rfl⟩
  | cons name names ih =>
      obtain ⟨set, hset⟩ := Option.isSome_iff_exists.mp (h name List.mem_cons_self)
      unfold enrol
      rw [hset]
      apply ih
      intro other hother
      have hmember := h other (List.mem_cons_of_mem _ hother)
      unfold NameMap.contains at hmember ⊢
      rw [NameMap.find?_insert]
      split
      · rfl
      · exact hmember

/-- A table of the groups of a configuration has all that stand above one of them. -/
theorem contains_of_mem_lineage (hparents : HasParents groups) {members : Members}
    (hnames : ∀ name, members.contains name = groups.contains name) {own : String}
    (hown : groups.contains own = true) :
    ∀ name ∈ groups.lineage own, members.contains name = true := by
  intro name hname
  rw [hnames]
  exact hparents.contains_of_isAncestor hown (Groups.isAncestor_of_mem_lineage hname)

/-- An account can be enrolled just if its own group is configured.  All groups above that one are
configured then, too. -/
theorem map_enrol (hparents : HasParents groups) {members : Members}
    (hnames : ∀ name, members.contains name = groups.contains name) (a : Account) :
    (enrol a.principal (groupsOf groups a) members).map (fun _ => ()) =
      refuse (a.group.toList.flatMap (fun name =>
        faultUnless (groups.contains name = true) (.unknownGroup name))) := by
  unfold groupsOf
  cases a.group with
  | none => rfl
  | some own =>
      rw [Option.toList_some, List.flatMap_singleton, ← List.append_nil (faultUnless _ _),
        refuse_unless]
      by_cases hown : groups.contains own = true
      · rw [if_pos hown]
        have hlineage := contains_of_mem_lineage hparents hnames hown
        obtain ⟨result, hresult⟩ := exists_enrol a.principal hlineage
        simp only [hresult]
        rfl
      · rw [if_neg hown]
        have hnone : groups.find? own = none := Option.not_isSome_iff_eq_none.mp hown
        have hmembers : members.find? own = none := by
          rw [← hnames] at hown
          exact Option.not_isSome_iff_eq_none.mp hown
        simp only [Groups.lineage_of_find?_eq_none hnone, enrol, hmembers]
        rfl

theorem Draft.Flat.contains_iff {done : List AccountConfig} {draft : Draft}
    (hd : draft.Flat groups done) (principal : String) :
    draft.accounts.contains principal = true ↔ ∃ other ∈ done, other.principal = principal := by
  unfold NameMap.contains
  rw [Option.isSome_iff_exists]
  constructor
  · rintro ⟨a, ha⟩
    obtain ⟨hprincipal, other, hother, hconfig⟩ := (hd.accounts principal a).mp ha
    refine ⟨other, hother, ?_⟩
    rw [← hprincipal]
    exact (Account.ofConfig_eq_ok hconfig).2.1.symm
  · rintro ⟨other, hother, rfl⟩
    obtain ⟨a, ha⟩ := hd.valid other hother
    exact ⟨a, (hd.accounts _ a).mpr ⟨(Account.ofConfig_eq_ok ha).2.1, other, hother, ha⟩⟩

theorem map_addAccount (hparents : HasParents groups) {done : List AccountConfig} {draft : Draft}
    (hd : draft.Flat groups done) (c : AccountConfig) :
    (addAccount groups draft c).map (fun _ => ()) = refuse (accountFaults groups done c) := by
  have hrecord := map_ofRecord c
  unfold addAccount accountFaults
  rw [List.append_assoc, refuse_append, ← hrecord]
  cases ha : Account.ofConfig c with
  | error e => rfl
  | ok a =>
      obtain ⟨-, hprincipal, hgroup, -⟩ := Account.ofConfig_eq_ok ha
      simp only [Except.map, bind, Except.bind]
      rw [refuse_unless, ← hgroup, ← hprincipal]
      by_cases hnew : ∀ other ∈ done, other.principal ≠ a.principal
      · have hfree : ¬ draft.accounts.contains a.principal = true := by
          intro hcontains
          obtain ⟨other, hother, heq⟩ := (hd.contains_iff _).mp hcontains
          exact hnew other hother heq
        rw [if_neg hfree, if_pos hnew, ← map_enrol hparents hd.names a]
        cases enrol a.principal (groupsOf groups a) draft.members <;> rfl
      · have htaken : draft.accounts.contains a.principal = true := by
          rw [hd.contains_iff]
          simpa using hnew
        rw [if_pos htaken, if_neg hnew]

theorem map_addAccounts (hparents : HasParents groups) {done rest : List AccountConfig}
    {draft : Draft} (hd : draft.Flat groups done) :
    (addAccounts groups draft rest).map (fun _ => ()) = refuse (listFaults groups done rest) := by
  induction rest generalizing done draft with
  | nil => rfl
  | cons c rest ih =>
      have hfirst := map_addAccount hparents hd c
      unfold addAccounts listFaults
      rw [refuse_append, ← hfirst]
      cases hc : addAccount groups draft c with
      | error e => rfl
      | ok next => exact ih (flat_addAccount hd hc)

/-- **A directory is refused with the first of its faults, and built if it has none.** -/
theorem map_ofConfig (groups : Groups) (accounts : List AccountConfig) :
    (ofConfig groups accounts).map (fun _ => ()) = refuse (faults groups accounts) := by
  unfold ofConfig faults
  rw [List.append_assoc, refuse_append, refuse_append, checkGroups_eq, checkLoops_eq]
  cases hgroups : groups.toList.flatMap (fun e => groupFaults groups e.1 e.2) with
  | cons e l => rfl
  | nil =>
      cases groups.names.flatMap
          (fun name => faultUnless (¬ groups.Repeats name) (DirectoryError.cycle name)) with
      | cons e l => rfl
      | nil =>
          show _ = refuse (listFaults groups [] accounts)
          rw [← map_addAccounts (hasParents_of_faults hgroups) (flat_start groups)]
          show (addAccounts groups (.start groups) accounts >>=
            fun draft => pure draft.finish).map (fun _ => ()) = _
          cases addAccounts groups (.start groups) accounts <;> rfl

end

/-! ### Well-formed configurations -/

/-- Groups and accounts that make a directory. -/
structure WellFormed (groups : Groups) (accounts : List AccountConfig) : Prop where
  /-- No group is without name. -/
  named : groups.contains "" = false
  /-- Every parent is configured. -/
  parents : HasParents groups
  /-- No line of parents repeats a group. -/
  lines : ∀ name, groups.contains name = true → ¬ groups.Repeats name
  /-- No account is without principal. -/
  principals : ∀ c ∈ accounts, c.principal ≠ ""
  /-- No two accounts have one principal. -/
  distinct : (accounts.map (·.principal)).Nodup
  /-- Every group of an account is configured. -/
  known : ∀ c ∈ accounts, ∀ name, c.group = some name → groups.contains name = true
  /-- An account that is limited to its address has one. -/
  limits : ∀ c ∈ accounts, c.limitAddress = true → ∃ address, c.address? = some address

section
variable {groups : Groups}

theorem contains_iff_mem_names {name : String} :
    groups.contains name = true ↔ name ∈ groups.names := by
  rw [NameMap.mem_names_iff]
  exact Option.isSome_iff_exists

theorem accountFaults_eq_nil_iff {earlier : List AccountConfig} {c : AccountConfig} :
    accountFaults groups earlier c = [] ↔
      c.principal ≠ "" ∧ (c.limitAddress = true → ∃ address, c.address? = some address) ∧
      (∀ other ∈ earlier, other.principal ≠ c.principal) ∧
      ∀ name, c.group = some name → groups.contains name = true := by
  unfold accountFaults recordFaults
  simp only [List.append_eq_nil_iff, faultUnless_eq_nil_iff, List.flatMap_eq_nil_iff,
    Option.mem_toList, Option.isSome_iff_exists, and_assoc]

theorem listFaults_eq_nil_iff {earlier rest : List AccountConfig} :
    listFaults groups earlier rest = [] ↔
      (∀ c ∈ rest, c.principal ≠ "") ∧
      (∀ c ∈ rest, c.limitAddress = true → ∃ address, c.address? = some address) ∧
      ((∀ c ∈ rest, ∀ other ∈ earlier, other.principal ≠ c.principal) ∧
        (rest.map (·.principal)).Nodup) ∧
      ∀ c ∈ rest, ∀ name, c.group = some name → groups.contains name = true := by
  induction rest generalizing earlier with
  | nil => simp [listFaults]
  | cons c rest ih =>
      unfold listFaults
      rw [List.append_eq_nil_iff, accountFaults_eq_nil_iff, ih]
      simp only [List.forall_mem_cons, List.map_cons, List.nodup_cons, List.mem_map, not_exists,
        not_and, List.mem_append, List.mem_singleton, or_imp, forall_and, forall_eq]
      constructor
      · rintro ⟨⟨hname, hlimit, hnew, hgroup⟩, hnames, hlimits, ⟨⟨hearlier, hlater⟩, hdistinct⟩,
          hgroups⟩
        refine ⟨⟨hname, hnames⟩, ⟨hlimit, hlimits⟩, ⟨⟨hnew, hearlier⟩, ?_, hdistinct⟩, hgroup,
          hgroups⟩
        exact fun other hother heq => hlater other hother heq.symm
      · rintro ⟨⟨hname, hnames⟩, ⟨hlimit, hlimits⟩, ⟨⟨hnew, hearlier⟩, hlater, hdistinct⟩, hgroup,
          hgroups⟩
        refine ⟨⟨hname, hlimit, hnew, hgroup⟩, hnames, hlimits, ⟨⟨hearlier, ?_⟩, hdistinct⟩, hgroups⟩
        exact fun other hother heq => hlater other hother heq.symm

/-- Nothing is wrong with the groups by themselves just if all have names and every parent is
configured. -/
theorem flatMap_groupFaults_eq_nil_iff :
    groups.toList.flatMap (fun e => groupFaults groups e.1 e.2) = [] ↔
      groups.contains "" = false ∧ HasParents groups := by
  constructor
  · intro h
    refine ⟨?_, hasParents_of_faults h⟩
    rw [Bool.eq_false_iff]
    intro hempty
    obtain ⟨g, hg⟩ := Option.isSome_iff_exists.mp hempty
    have hfaults := List.flatMap_eq_nil_iff.mp h ("", g) ((NameMap.mem_toList_iff groups).mpr hg)
    exact (groupFaults_eq_nil_iff.mp hfaults).1 rfl
  · rintro ⟨hnamed, hparents⟩
    rw [List.flatMap_eq_nil_iff]
    rintro ⟨name, g⟩ he
    have hg := (NameMap.mem_toList_iff groups).mp he
    apply groupFaults_eq_nil_iff.mpr
    constructor
    · rintro rfl
      have hempty : groups.contains "" = true := Option.isSome_iff_exists.mpr ⟨g, hg⟩
      rw [hnamed] at hempty
      cases hempty
    · intro parent hparent
      apply hparents name parent
      unfold Groups.parent?
      rw [hg]
      exact hparent

theorem faults_eq_nil_iff {accounts : List AccountConfig} :
    faults groups accounts = [] ↔ WellFormed groups accounts := by
  unfold faults
  rw [List.append_eq_nil_iff, List.append_eq_nil_iff, listFaults_eq_nil_iff,
    flatMap_groupFaults_eq_nil_iff]
  constructor
  · rintro ⟨⟨⟨hnamed, hparents⟩, hlines⟩, hprincipals, hlimits, ⟨-, hdistinct⟩, hknown⟩
    refine ⟨hnamed, hparents, ?_, hprincipals, hdistinct, hknown, hlimits⟩
    intro name hname
    have hfaults := List.flatMap_eq_nil_iff.mp hlines name (contains_iff_mem_names.mp hname)
    exact faultUnless_eq_nil_iff.mp hfaults
  · intro h
    refine ⟨⟨⟨h.named, h.parents⟩, ?_⟩, h.principals, h.limits, ⟨?_, h.distinct⟩, h.known⟩
    · rw [List.flatMap_eq_nil_iff]
      intro name hname
      exact faultUnless_eq_nil_iff.mpr (h.lines name (contains_iff_mem_names.mpr hname))
    · intro c _ other hother
      cases hother

theorem exists_ofConfig_iff {accounts : List AccountConfig} :
    (∃ d, ofConfig groups accounts = .ok d) ↔ WellFormed groups accounts := by
  rw [← faults_eq_nil_iff, ← refuse_eq_ok_iff, ← map_ofConfig]
  cases ofConfig groups accounts <;> simp [Except.map]

theorem not_mem_unknownGroup {name : String} :
    .unknownGroup name ∉ groups.toList.flatMap (fun e => groupFaults groups e.1 e.2) ++
      groups.names.flatMap (fun name => faultUnless (¬ groups.Repeats name) (.cycle name)) := by
  intro h
  unfold groupFaults faultUnless at h
  simp only [List.mem_append, List.mem_flatMap, Option.mem_toList] at h
  rcases h with ⟨e, -, h | ⟨parent, -, h⟩⟩ | ⟨other, -, h⟩
  all_goals split at h <;> simp at h

theorem mem_unknownGroup {earlier rest : List AccountConfig} {name : String}
    (h : .unknownGroup name ∈ listFaults groups earlier rest) :
    ∃ c ∈ rest, c.group = some name ∧ groups.contains name = false := by
  induction rest generalizing earlier with
  | nil => cases h
  | cons c rest ih =>
      unfold listFaults at h
      rcases List.mem_append.mp h with h | h
      · refine ⟨c, List.mem_cons_self, ?_⟩
        unfold accountFaults recordFaults faultUnless at h
        simp only [List.mem_append, List.mem_flatMap, Option.mem_toList] at h
        rcases h with ((h | h) | h) | ⟨own, hown, h⟩
        · split at h <;> simp at h
        · split at h <;> simp at h
        · split at h <;> simp at h
        · split at h
          · cases h
          · next hunknown =>
            cases List.mem_singleton.mp h
            exact ⟨hown, Bool.eq_false_iff.mpr hunknown⟩
      · obtain ⟨c', hc', h⟩ := ih h
        exact ⟨c', List.mem_cons_of_mem _ hc', h⟩

end

/-- How groups and accounts are judged. -/
structure Judges (groups : Groups) (accounts : List AccountConfig) : Prop where
  /-- Just the well-formed ones make a directory. -/
  accepts : (∃ d, ofConfig groups accounts = .ok d) ↔ WellFormed groups accounts
  /-- Of all that is wrong, the first is reported. -/
  reports : ∀ e, ofConfig groups accounts = .error e ↔ (faults groups accounts).head? = some e
  /-- A group is reported as unknown only if it is an account's own. -/
  unknownGroup : ∀ name, ofConfig groups accounts = .error (.unknownGroup name) →
    ∃ c ∈ accounts, c.group = some name ∧ groups.contains name = false

/-- **Directories are built from well-formed configurations**, and any other is refused with the
first of its faults. -/
theorem judges_ofConfig (groups : Groups) (accounts : List AccountConfig) :
    Judges groups accounts := by
  have hreports : ∀ e, ofConfig groups accounts = .error e ↔
      (faults groups accounts).head? = some e := by
    intro e
    rw [← refuse_eq_error_iff, ← map_ofConfig]
    cases ofConfig groups accounts <;> simp [Except.map]
  refine ⟨exists_ofConfig_iff, hreports, ?_⟩
  intro name hname
  have hmem := List.mem_of_mem_head? ((hreports _).mp hname)
  unfold faults at hmem
  rcases List.mem_append.mp hmem with hmem | hmem
  · exact absurd hmem not_mem_unknownGroup
  · exact mem_unknownGroup hmem

/-- Two groups that are each other's parents, and an account that comes twice: the loop is reported,
though the account is wrong, too. -/
example :
    let circle : Groups := .ofList [("east", ⟨some "west"⟩), ("west", ⟨some "east"⟩)]
    let ada : AccountConfig := ⟨"ada", some "north", false, false, ∅⟩
    faults circle [ada, ada] = [.cycle "east", .cycle "west", .unknownGroup "north",
      .duplicateAccount "ada", .unknownGroup "north"] := by
  decide +kernel

end Directory
end CredentialServer
