import CredentialServer.Proofs.Directory.Validity

/-! # Which group is reported for a cycle

Where the parents of some groups run in a cycle, no directory is built.  The cycle is looked for
by one walk from each group, in order of name, and the error names the group that the first walk
which repeats a group *started* from.  That group need not be on the cycle: it may lead into one
(`LeadsToCycle`), and then following its parents never comes back to it (`OnCycle`).  A line of
parents repeats a group just if it leads into a cycle (`repeats_iff_leadsToCycle`).  Main
statement: `reportsCycle_ofConfig`, which says that the error names the least of all groups that
lead into a cycle, and when this one is on the cycle itself. -/

namespace CredentialServer

/-! ### Cycles of parents -/

namespace Groups

/-- Following parents from a group, once or more often, leads back to it. -/
def OnCycle (groups : Groups) (name : String) : Prop :=
  ∃ parent, groups.parent? name = some parent ∧ groups.IsAncestor parent name

/-- Following parents from a group leads to one that is on a cycle. -/
def LeadsToCycle (groups : Groups) (name : String) : Prop :=
  ∃ g, groups.IsAncestor name g ∧ groups.OnCycle g

variable {groups : Groups} {name g : String}

theorem isAncestor_iff_above? : groups.IsAncestor name g ↔ ∃ n, groups.above? name n = some g := by
  constructor
  · intro h
    induction h with
    | refl => exact ⟨0, rfl⟩
    | step hstep _ ih =>
        obtain ⟨n, hn⟩ := ih
        exact ⟨n + 1, by rw [above?_succ_of_parent hstep, hn]⟩
  · rintro ⟨n, hn⟩
    induction n generalizing name with
    | zero =>
        cases hn
        exact .refl _
    | succ n ih =>
        cases hp : groups.parent? name with
        | none =>
            rw [above?_succ_of_none hp] at hn
            cases hn
        | some parent =>
            rw [above?_succ_of_parent hp] at hn
            exact .step hp (ih hn)

/-- What stands above a group that stands above another stands above that one, too. -/
theorem above?_add {m : Nat} (h : groups.above? name m = some g) (n : Nat) :
    groups.above? name (m + n) = groups.above? g n := by
  induction m generalizing name with
  | zero =>
      cases h
      rw [Nat.zero_add]
  | succ m ih =>
      cases hp : groups.parent? name with
      | none =>
          rw [above?_succ_of_none hp] at h
          cases h
      | some parent =>
          rw [above?_succ_of_parent hp] at h
          rw [Nat.add_right_comm, above?_succ_of_parent hp, ih h]

theorem onCycle_iff_above? : groups.OnCycle name ↔ ∃ n, groups.above? name (n + 1) = some name := by
  constructor
  · rintro ⟨parent, hp, hback⟩
    obtain ⟨n, hn⟩ := isAncestor_iff_above?.mp hback
    exact ⟨n, by rw [above?_succ_of_parent hp, hn]⟩
  · rintro ⟨n, hn⟩
    cases hp : groups.parent? name with
    | none =>
        rw [above?_succ_of_none hp] at hn
        cases hn
    | some parent =>
        rw [above?_succ_of_parent hp] at hn
        exact ⟨parent, hp, isAncestor_iff_above?.mpr ⟨n, hn⟩⟩

/-- A line of parents repeats a group just if it runs into a cycle. -/
theorem repeats_iff_leadsToCycle : groups.Repeats name ↔ groups.LeadsToCycle name := by
  constructor
  · rintro ⟨i, j, g, hij, hi, hj⟩
    obtain ⟨n, rfl⟩ : ∃ n, j = i + (n + 1) := ⟨j - i - 1, by omega⟩
    rw [above?_add hi] at hj
    exact ⟨g, isAncestor_iff_above?.mpr ⟨i, hi⟩, onCycle_iff_above?.mpr ⟨n, hj⟩⟩
  · rintro ⟨g, habove, hcycle⟩
    obtain ⟨i, hi⟩ := isAncestor_iff_above?.mp habove
    obtain ⟨n, hn⟩ := onCycle_iff_above?.mp hcycle
    refine ⟨i, i + (n + 1), g, by omega, hi, ?_⟩
    rw [above?_add hi, hn]

theorem OnCycle.leadsToCycle (h : groups.OnCycle name) : groups.LeadsToCycle name :=
  ⟨name, .refl name, h⟩

theorem LeadsToCycle.mem_names (h : groups.LeadsToCycle name) : name ∈ groups.names := by
  obtain ⟨g, habove, parent, hg, -⟩ := h
  cases habove with
  | refl => exact mem_names_of_parent hg
  | step hstep _ => exact mem_names_of_parent hstep

end Groups

/-! ### The group that is reported -/

namespace Directory

section
variable {groups : Groups} {accounts : List AccountConfig} {name : String}

theorem find?_eq_some_iff_least {p : String → Bool} {l : List String} (hl : l.Pairwise (· < ·)) :
    l.find? p = some name ↔
      (name ∈ l ∧ p name = true) ∧ ∀ other ∈ l, p other = true → name ≤ other := by
  induction l with
  | nil => simp
  | cons first l ih =>
      obtain ⟨hfirst, hl⟩ := List.pairwise_cons.mp hl
      rw [List.find?_cons, List.forall_mem_cons, List.mem_cons]
      cases hp : p first with
      | true =>
          constructor
          · intro h
            cases h
            refine ⟨⟨.inl rfl, hp⟩, fun _ => String.le_refl _, ?_⟩
            intro other hother _
            exact Std.le_of_lt (hfirst other hother)
          · rintro ⟨⟨rfl | hmem, -⟩, hleast, -⟩
            · rfl
            · exact absurd (hfirst name hmem) (String.not_lt.mpr (hleast rfl))
      | false =>
          rw [ih hl]
          constructor
          · rintro ⟨⟨hmem, hname⟩, hleast⟩
            exact ⟨⟨.inr hmem, hname⟩, fun h => absurd h Bool.false_ne_true, hleast⟩
          · rintro ⟨⟨rfl | hmem, hname⟩, -, hleast⟩
            · rw [hp] at hname
              cases hname
            · exact ⟨⟨hmem, hname⟩, hleast⟩

theorem checkLoops_eq_error_iff {names : List String} {e : DirectoryError} :
    checkLoops groups names = .error e ↔
      ∃ name, names.find? (fun name => groups.Repeats name) = some name ∧ e = .cycle name := by
  induction names with
  | nil => simp [checkLoops]
  | cons first names ih =>
      unfold checkLoops
      rw [List.find?_cons]
      by_cases hrepeats : groups.Repeats first
      · rw [if_pos (Groups.isLoop_walk_iff.mpr hrepeats)]
        simp [hrepeats, eq_comm]
      · rw [if_neg (fun h => hrepeats (Groups.isLoop_walk_iff.mp h)), ih]
        simp [hrepeats]

theorem not_mem_cycle_groups :
    .cycle name ∉ groups.toList.flatMap (fun e => groupFaults groups e.1 e.2) := by
  intro h
  unfold groupFaults faultUnless at h
  simp only [List.mem_append, List.mem_flatMap, Option.mem_toList] at h
  rcases h with ⟨e, -, h | ⟨parent, -, h⟩⟩
  all_goals split at h <;> simp at h

theorem not_mem_cycle_accounts {earlier rest : List AccountConfig} :
    .cycle name ∉ listFaults groups earlier rest := by
  induction rest generalizing earlier with
  | nil => exact List.not_mem_nil
  | cons c rest ih =>
      intro h
      unfold listFaults at h
      rcases List.mem_append.mp h with h | h
      · unfold accountFaults recordFaults faultUnless at h
        simp only [List.mem_append, List.mem_flatMap, Option.mem_toList] at h
        rcases h with ((h | h) | h) | ⟨own, -, h⟩
        all_goals split at h <;> simp at h
      · exact ih h

/-- A cycle is reported just if the groups are sound by themselves and the search from each of them
in turn finds one. -/
theorem ofConfig_eq_cycle_iff : ofConfig groups accounts = .error (.cycle name) ↔
    (groups.contains "" = false ∧ HasParents groups) ∧
      checkLoops groups groups.names = .error (.cycle name) := by
  have hreport : ofConfig groups accounts = .error (.cycle name) ↔
      refuse (faults groups accounts) = .error (.cycle name) := by
    rw [← map_ofConfig]
    cases ofConfig groups accounts <;> simp [Except.map]
  rw [hreport, ← flatMap_groupFaults_eq_nil_iff, checkLoops_eq, faults, List.append_assoc,
    refuse_eq_error_iff, refuse_eq_error_iff]
  cases hgroups : groups.toList.flatMap (fun e => groupFaults groups e.1 e.2) with
  | cons e l =>
      have hne : e ≠ .cycle name := by
        rintro rfl
        exact not_mem_cycle_groups (hgroups ▸ List.mem_cons_self)
      simp [hne]
  | nil =>
      rw [List.nil_append, List.head?_append]
      cases hlines : groups.names.flatMap
          (fun name => faultUnless (¬ groups.Repeats name) (DirectoryError.cycle name)) with
      | cons e l => simp
      | nil =>
          have hnone : (listFaults groups [] accounts).head? ≠ some (.cycle name) :=
            fun h => not_mem_cycle_accounts (List.mem_of_mem_head? h)
          simp [hnone]

/-- The search reports the least of all groups that lead into a cycle. -/
theorem checkLoops_eq_cycle_iff : checkLoops groups groups.names = .error (.cycle name) ↔
    groups.LeadsToCycle name ∧ ∀ other, groups.LeadsToCycle other → name ≤ other := by
  have hsearch : checkLoops groups groups.names = .error (.cycle name) ↔
      groups.names.find? (fun g => groups.Repeats g) = some name := by
    rw [checkLoops_eq_error_iff]
    constructor
    · rintro ⟨found, hfound, heq⟩
      cases heq
      exact hfound
    · intro h
      exact ⟨name, h, rfl⟩
  have hsorted : groups.names.Pairwise (· < ·) := NameMap.pairwise_map_fst.mp groups.sorted
  rw [hsearch, find?_eq_some_iff_least hsorted]
  simp only [decide_eq_true_eq, Groups.repeats_iff_leadsToCycle]
  constructor
  · rintro ⟨⟨-, hleads⟩, hleast⟩
    exact ⟨hleads, fun other hother => hleast other hother.mem_names hother⟩
  · rintro ⟨hleads, hleast⟩
    exact ⟨⟨hleads.mem_names, hleads⟩, fun other _ hother => hleast other hother⟩

/-- A search that succeeds found no group that leads into a cycle. -/
theorem not_leadsToCycle_of_checkLoops (h : checkLoops groups groups.names = .ok ()) :
    ¬ groups.LeadsToCycle name := by
  intro hleads
  have hloop := checkLoops_eq_ok_iff.mp h name hleads.mem_names
  rw [Groups.isLoop_walk_iff.mpr (Groups.repeats_iff_leadsToCycle.mpr hleads)] at hloop
  cases hloop

end

/-- How cycles of parents are reported. -/
structure ReportsCycle (groups : Groups) (accounts : List AccountConfig) : Prop where
  /-- If all groups have names and configured parents, then a cycle is reported as soon as there is
  one, whatever is wrong with the accounts. -/
  found : groups.contains "" = false → HasParents groups →
    ((∃ name, ofConfig groups accounts = .error (.cycle name)) ↔ ∃ g, groups.OnCycle g)
  /-- It is reported for the least of all groups that lead into a cycle. -/
  least : ∀ name, ofConfig groups accounts = .error (.cycle name) →
    groups.LeadsToCycle name ∧ ∀ other, groups.LeadsToCycle other → name ≤ other
  /-- This group is on a cycle itself just if no group that leads into one comes before all that
  are on one. -/
  onCycle_iff : ∀ name, ofConfig groups accounts = .error (.cycle name) →
    (groups.OnCycle name ↔
      ∀ other, groups.LeadsToCycle other → ∃ g, groups.OnCycle g ∧ g ≤ other)

/-- **A cycle of parents is reported for the least group that leads into one.** -/
theorem reportsCycle_ofConfig (groups : Groups) (accounts : List AccountConfig) :
    ReportsCycle groups accounts := by
  have hleast : ∀ name, ofConfig groups accounts = .error (.cycle name) →
      groups.LeadsToCycle name ∧ ∀ other, groups.LeadsToCycle other → name ≤ other := by
    intro name h
    exact checkLoops_eq_cycle_iff.mp (ofConfig_eq_cycle_iff.mp h).2
  refine ⟨?_, hleast, ?_⟩
  · intro hnamed hparents
    constructor
    · rintro ⟨name, h⟩
      obtain ⟨g, -, hcycle⟩ := (hleast name h).1
      exact ⟨g, hcycle⟩
    · rintro ⟨g, hcycle⟩
      cases hloops : checkLoops groups groups.names with
      | ok u => exact absurd hcycle.leadsToCycle (not_leadsToCycle_of_checkLoops hloops)
      | error e =>
          obtain ⟨name, -, rfl⟩ := checkLoops_eq_error_iff.mp hloops
          exact ⟨name, ofConfig_eq_cycle_iff.mpr ⟨⟨hnamed, hparents⟩, hloops⟩⟩
  · intro name h
    obtain ⟨hleads, hfirst⟩ := hleast name h
    constructor
    · intro hcycle other hother
      exact ⟨name, hcycle, hfirst other hother⟩
    · intro hcovered
      obtain ⟨g, hcycle, hle⟩ := hcovered name hleads
      have heq : g = name := String.le_antisymm hle (hfirst g hcycle.leadsToCycle)
      rwa [heq] at hcycle

/-- A group below one that is its own parent. -/
def annexed : Groups := .ofList [("annex", ⟨some "ring"⟩), ("ring", ⟨some "ring"⟩)]

theorem eq_ring_of_isAncestor {name g : String} (hname : name = "ring")
    (h : annexed.IsAncestor name g) : g = "ring" := by
  induction h with
  | refl => exact hname
  | step hstep _ ih =>
      subst hname
      have hparent : annexed.parent? "ring" = some "ring" := by decide +kernel
      rw [hparent] at hstep
      exact ih (Option.some.inj hstep).symm

/-- A cycle is reported for a group that is not on it: following its parents never leads back. -/
theorem cycle_reported_for_annex : HasParents annexed ∧
    ofConfig annexed [] = .error (.cycle "annex") ∧ ¬ annexed.OnCycle "annex" := by
  have hsound : annexed.contains "" = false ∧ HasParents annexed :=
    flatMap_groupFaults_eq_nil_iff.mp (by decide +kernel)
  have hloops : checkLoops annexed annexed.names = .error (.cycle "annex") := by
    rw [checkLoops_eq]
    exact refuse_eq_error_iff.mpr (by decide +kernel)
  refine ⟨hsound.2, ofConfig_eq_cycle_iff.mpr ⟨hsound, hloops⟩, ?_⟩
  rintro ⟨parent, hparent, hback⟩
  have hring : annexed.parent? "annex" = some "ring" := by decide +kernel
  rw [hring] at hparent
  have := eq_ring_of_isAncestor (Option.some.inj hparent).symm hback
  exact absurd this (by decide)

end Directory
end CredentialServer
