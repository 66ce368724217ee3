import CredentialServer.Proofs.Directory.Cycles

/-! # Loops along parents come to an end

Two loops go from a group to its parent, and from there to the next, while a directory is built.
The search for cycles remembers the groups that it met.  The climb, which makes an account a member
of one group after the other, remembers nothing, and around a cycle it would never end.  `Follows`
is such a loop with any body: it relates what the loop starts with to the groups that it visits and
to what it ends with, and a loop that does not end is related to nothing.

A search ends by itself, at the latest with the visit after it met all groups
(`exists_follows_note`).  A climb ends just if it does not run into a cycle
(`exists_follows_register_iff`), so it needs what the searches before it found out.  `Builds` puts
all loops together.  Main statement: `terminates_ofConfig`, by which they always end, with the
directory or the error that `ofConfig` gives. -/

namespace CredentialServer

/-! ### Loops along parents -/

namespace Groups

variable {σ ε : Type} {groups : Groups} {body : String → σ → Except ε σ}
variable {start : Option String} {s : σ} {visited line : List String} {r : Except ε σ}

/-- A loop that runs its body at a group and goes on with the parent.  It ends with the first error
of the body, or with the state that is left behind a group without parent. -/
inductive Follows (groups : Groups) (body : String → σ → Except ε σ) :
    Option String → σ → List String → Except ε σ → Prop
  | ended (s : σ) : Follows groups body none s [] (.ok s)
  | left {name : String} {s : σ} {e : ε} (h : body name s = .error e) :
      Follows groups body (some name) s [name] (.error e)
  | next {name : String} {s t : σ} {visited : List String} {r : Except ε σ}
      (h : body name s = .ok t) (rest : Follows groups body (groups.parent? name) t visited r) :
      Follows groups body (some name) s (name :: visited) r

theorem Follows.unique {visited' : List String} {r' : Except ε σ}
    (h : groups.Follows body start s visited r) (h' : groups.Follows body start s visited' r') :
    visited = visited' ∧ r = r' := by
  induction h generalizing visited' r' with
  | ended s =>
      cases h'
      exact ⟨rfl, rfl⟩
  | left hbody =>
      cases h' with
      | left hbody' =>
          rw [hbody] at hbody'
          cases hbody'
          exact ⟨rfl, rfl⟩
      | next hbody' _ =>
          rw [hbody] at hbody'
          cases hbody'
  | next hbody _ ih =>
      cases h' with
      | left hbody' =>
          rw [hbody] at hbody'
          cases hbody'
      | next hbody' rest' =>
          rw [hbody] at hbody'
          cases hbody'
          obtain ⟨rfl, rfl⟩ := ih rest'
          exact ⟨rfl, rfl⟩

/-- A line of parents from its first group, if it has one, to its last. -/
inductive IsLine (groups : Groups) : Option String → List String → Prop
  | nil : IsLine groups none []
  | cons {name : String} {line : List String} (rest : IsLine groups (groups.parent? name) line) :
      IsLine groups (some name) (name :: line)

theorem IsLine.unique {line' : List String} (h : groups.IsLine start line)
    (h' : groups.IsLine start line') : line = line' := by
  induction h generalizing line' with
  | nil =>
      cases h'
      rfl
  | cons _ ih =>
      cases h' with
      | cons rest' => rw [ih rest']

theorem Follows.isLine {t : σ} (h : groups.Follows body start s visited r) (hr : r = .ok t) :
    groups.IsLine start visited := by
  induction h with
  | ended => exact .nil
  | left => cases hr
  | next _ _ ih => exact .cons (ih hr)

/-- Along a line that ends every loop ends, with what its body does to the groups one by one. -/
theorem IsLine.exists_follows (h : groups.IsLine start line) (body : String → σ → Except ε σ)
    (s : σ) : ∃ visited,
      groups.Follows body start s visited (line.foldlM (fun s name => body name s) s) := by
  induction h generalizing s with
  | nil => exact ⟨[], .ended s⟩
  | @cons name line _ ih =>
      rw [List.foldlM_cons]
      cases hbody : body name s with
      | error e => exact ⟨[name], .left hbody⟩
      | ok t =>
          obtain ⟨visited, hfollows⟩ := ih t
          exact ⟨name :: visited, .next hbody hfollows⟩

theorem exists_isLine_of_walkFrom {met : List String} {name : String}
    (h : (walkFrom groups met name).isLoop = false) : ∃ line, groups.IsLine (some name) line ∧
      (walkFrom groups met name).met = line.reverse ++ met := by
  fun_induction walkFrom groups met name with
  | case1 met name hmet => cases h
  | case2 met name hmet hnone => exact ⟨[name], .cons (hnone ▸ .nil), rfl⟩
  | case3 met name hmet parent hparent ih =>
      obtain ⟨line, hline, hwalk⟩ := ih h
      refine ⟨name :: line, .cons (hparent ▸ hline), ?_⟩
      rw [hwalk, List.reverse_cons, List.append_assoc, List.singleton_append]

theorem isLine_lineage {name : String} (h : (groups.walk name).isLoop = false) :
    groups.IsLine (some name) (groups.lineage name) := by
  obtain ⟨line, hline, hwalk⟩ := exists_isLine_of_walkFrom h
  unfold lineage walk
  rwa [hwalk, List.append_nil, List.reverse_reverse]

theorem IsLine.not_repeats (h : groups.IsLine start line) :
    ∀ name, start = some name → ¬ groups.Repeats name := by
  induction h with
  | nil =>
      intro name hstart
      cases hstart
  | @cons first line _ ih =>
      intro name hstart
      cases hstart
      cases hparent : groups.parent? first with
      | none => exact not_repeats_of_none hparent
      | some parent =>
          have hrest := ih parent hparent
          rw [repeats_iff_of_parent hparent]
          rintro (⟨n, hn⟩ | hrepeats)
          · have hback : groups.above? parent (n + 1) = some parent := by
              rw [above?_add hn, above?_succ_of_parent hparent]
              rfl
            have hcycle : groups.OnCycle parent := onCycle_iff_above?.mpr ⟨n, hback⟩
            exact hrest (repeats_iff_leadsToCycle.mpr hcycle.leadsToCycle)
          · exact hrest hrepeats

theorem isLoop_walk_eq_false_iff {name : String} :
    (groups.walk name).isLoop = false ↔ ¬ groups.LeadsToCycle name := by
  rw [← repeats_iff_leadsToCycle, ← isLoop_walk_iff, Bool.not_eq_true]

end Groups

namespace Directory

/-! ### The search for cycles -/

/-- The body of the search that starts at a group: it leaves at a group that was met before. -/
def note (start name : String) (met : List String) : Except DirectoryError (List String) :=
  if name ∈ met then .error (.cycle start) else .ok (name :: met)

section
variable {groups : Groups}

/-- A search ends with what a walk finds.  Each of its visits but the last is to a group that has a
parent and was not met. -/
theorem exists_follows_note (groups : Groups) (start : String) (met : List String) (name : String) :
    ∃ visited, groups.Follows (note start) (some name) met visited
        (if (groups.walkFrom met name).isLoop then .error (.cycle start)
          else .ok (groups.walkFrom met name).met) ∧
      visited.length ≤ (groups.names.filter (fun n => n ∉ met)).length + 1 := by
  fun_induction Groups.walkFrom groups met name with
  | case1 met name hmet =>
      refine ⟨[name], .left (if_pos hmet), ?_⟩
      exact Nat.le_add_left 1 _
  | case2 met name hmet hnone =>
      refine ⟨[name], .next (if_neg hmet) ?_, Nat.le_add_left 1 _⟩
      rw [hnone]
      exact .ended _
  | case3 met name hmet parent hparent ih =>
      obtain ⟨visited, hfollows, hlength⟩ := ih
      -- whatever has a parent is configured, so one group fewer is left to be met
      have hfewer := Groups.length_filter_lt (Groups.mem_names_of_parent hparent) hmet
      refine ⟨name :: visited, .next (if_neg hmet) ?_, ?_⟩
      · rw [hparent]
        exact hfollows
      · rw [List.length_cons]
        omega

theorem exists_search (groups : Groups) (name : String) :
    ∃ visited, groups.Follows (note name) (some name) [] visited
        (if (groups.walk name).isLoop then .error (.cycle name)
          else .ok (groups.walk name).met) ∧
      visited.length ≤ groups.size + 1 := by
  obtain ⟨visited, hfollows, hlength⟩ := exists_follows_note groups name [] name
  refine ⟨visited, hfollows, ?_⟩
  have hall : groups.names.filter (fun n => n ∉ []) = groups.names := by simp
  rwa [hall, NameMap.names, List.length_map] at hlength

/-- A group that is its own parent is met again at the second visit, although there is no other. -/
example :
    let ring : Groups := .ofList [("ring", ⟨some "ring"⟩)]
    ring.Follows (note "ring") (some "ring") [] ["ring", "ring"] (.error (.cycle "ring")) := by
  intro ring
  have hparent : ring.parent? "ring" = some "ring" := by decide +kernel
  refine .next (t := ["ring"]) rfl ?_
  rw [hparent]
  exact .left rfl

/-! ### Loops over lists -/

/-- A loop over a list whose body need not end.  It ends with the first error. -/
inductive Each {α σ ε : Type} (body : α → σ → Except ε σ → Prop) :
    List α → σ → Except ε σ → Prop
  | done (s : σ) : Each body [] s (.ok s)
  | left {a : α} {rest : List α} {s : σ} {e : ε} (h : body a s (.error e)) :
      Each body (a :: rest) s (.error e)
  | next {a : α} {rest : List α} {s t : σ} {r : Except ε σ} (h : body a s (.ok t))
      (hrest : Each body rest t r) : Each body (a :: rest) s r

/-- If the body always ends, so does the loop. -/
theorem each_iff {α σ ε : Type} {body : α → σ → Except ε σ → Prop} {f : σ → α → Except ε σ}
    (hbody : ∀ a s r, body a s r ↔ r = f s a) {l : List α} {s : σ} {r : Except ε σ} :
    Each body l s r ↔ r = l.foldlM f s := by
  induction l generalizing s r with
  | nil =>
      constructor
      · intro h
        cases h
        rfl
      · rintro rfl
        exact .done s
  | cons a l ih =>
      rw [List.foldlM_cons]
      constructor
      · intro h
        cases h with
        | left he =>
            rw [← (hbody a s _).mp he]
            rfl
        | next ht hrest =>
            rw [← (hbody a s _).mp ht]
            exact ih.mp hrest
      · rintro rfl
        cases hf : f s a with
        | error e => exact .left ((hbody a s _).mpr hf.symm)
        | ok t => exact .next ((hbody a s _).mpr hf.symm) (ih.mpr rfl)

/-- The search from one group. -/
def Searches (groups : Groups) (name : String) (_ : Unit) (r : Except DirectoryError Unit) : Prop :=
  ∃ visited met, groups.Follows (note name) (some name) [] visited met ∧ r = met.map (fun _ => ())

theorem searches_iff {name : String} {u : Unit} {r : Except DirectoryError Unit} :
    Searches groups name u r ↔
      r = if (groups.walk name).isLoop then .error (.cycle name) else .ok () := by
  obtain ⟨visited, hfollows, -⟩ := exists_search groups name
  have hresult : Searches groups name u r ↔
      r = (if (groups.walk name).isLoop then .error (.cycle name)
        else .ok (groups.walk name).met : Except DirectoryError _).map (fun _ => ()) := by
    constructor
    · rintro ⟨visited', met, hfollows', rfl⟩
      rw [(hfollows'.unique hfollows).2]
    · intro hr
      exact ⟨visited, _, hfollows, hr⟩
  rw [hresult]
  cases (groups.walk name).isLoop <;> rfl

theorem checkLoops_eq_foldlM (names : List String) : checkLoops groups names =
    names.foldlM (fun _ name => if (groups.walk name).isLoop then .error (.cycle name) else .ok ())
      () := by
  induction names with
  | nil => rfl
  | cons name names ih =>
      rw [checkLoops, List.foldlM_cons, ih]
      cases (groups.walk name).isLoop <;> rfl

theorem each_searches_iff {names : List String} {r : Except DirectoryError Unit} :
    Each (Searches groups) names () r ↔ r = checkLoops groups names := by
  rw [checkLoops_eq_foldlM]
  apply each_iff
  intro name u r
  exact searches_iff

/-! ### Climbs -/

/-- The body of a climb: it leaves at a group that is not in the table. -/
def register (principal name : String) (members : Members) : Except DirectoryError Members :=
  enrol principal [name] members

theorem enrol_eq_foldlM (principal : String) (names : List String) (members : Members) :
    enrol principal names members =
      names.foldlM (fun members name => register principal name members) members := by
  induction names generalizing members with
  | nil => rfl
  | cons name names ih =>
      rw [List.foldlM_cons]
      unfold register
      cases hset : members.find? name with
      | none => simp only [enrol, hset, bind, Except.bind]
      | some set =>
          simp only [enrol, hset, bind, Except.bind]
          exact ih _

/-- A table has the groups of a configuration. -/
def Members.Covers (members : Members) (groups : Groups) : Prop :=
  ∀ name, members.contains name = groups.contains name

theorem covers_of_addAccounts {done : List AccountConfig} {draft : Draft}
    (h : addAccounts groups (.start groups) done = .ok draft) : draft.members.Covers groups :=
  (flat_addAccounts (flat_start groups) h).names

section
variable {members : Members} {name : String}

/-- A climb that does not run into a cycle finds every group of the line from its first. -/
theorem exists_follows_register (hparents : HasParents groups) (hcovers : members.Covers groups)
    (hname : groups.contains name = true) (hloop : (groups.walk name).isLoop = false)
    (principal : String) : ∃ result, groups.Follows (register principal) (some name) members
      (groups.lineage name) (.ok result) := by
  have hline := Groups.isLine_lineage hloop
  have hfound := contains_of_mem_lineage hparents hcovers hname
  obtain ⟨result, hresult⟩ := exists_enrol principal hfound
  obtain ⟨visited, hfollows⟩ := hline.exists_follows (register principal) members
  rw [← enrol_eq_foldlM, hresult] at hfollows
  have hvisited : visited = groups.lineage name := (hfollows.isLine rfl).unique hline
  rw [hvisited] at hfollows
  exact ⟨result, hfollows⟩

/-- A climb finds every group that it comes to, also around a cycle, so it ends without error if it
ends at all. -/
theorem exists_of_follows_register (hparents : HasParents groups) {principal : String}
    {start : Option String} {visited : List String} {r : Except DirectoryError Members}
    (h : groups.Follows (register principal) start members visited r)
    (hcovers : members.Covers groups)
    (hstart : ∀ name, start = some name → groups.contains name = true) :
    ∃ result, r = .ok result := by
  induction h with
  | ended members => exact ⟨members, rfl⟩
  | @left name members e hbody =>
      have hfound : ∀ g ∈ [name], members.contains g = true := by
        intro g hg
        rw [List.mem_singleton.mp hg, hcovers]
        exact hstart name rfl
      obtain ⟨result, hresult⟩ := exists_enrol principal hfound
      rw [register, hresult] at hbody
      cases hbody
  | next hbody _ ih =>
      apply ih
      · intro name
        rw [contains_enrol hbody, hcovers]
      · exact fun parent hparent => hparents _ parent hparent

/-- A climb ends just if it does not run into a cycle. -/
theorem exists_follows_register_iff (hparents : HasParents groups)
    (hcovers : members.Covers groups) (hname : groups.contains name = true) (principal : String) :
    (∃ visited r, groups.Follows (register principal) (some name) members visited r) ↔
      ¬ groups.LeadsToCycle name := by
  constructor
  · rintro ⟨visited, r, hfollows⟩
    have hstart : ∀ g, some name = some g → groups.contains g = true := by
      intro g hg
      cases hg
      exact hname
    obtain ⟨result, hr⟩ := exists_of_follows_register hparents hfollows hcovers hstart
    -- a climb without error followed a whole line, and such a line repeats no group
    rw [← Groups.repeats_iff_leadsToCycle]
    exact (hfollows.isLine hr).not_repeats name rfl
  · intro hcycle
    have hloop := Groups.isLoop_walk_eq_false_iff.mpr hcycle
    obtain ⟨result, hfollows⟩ := exists_follows_register hparents hcovers hname hloop principal
    exact ⟨_, _, hfollows⟩

theorem follows_register_of_unknown (hcovers : members.Covers groups)
    (hname : groups.contains name = false) (principal : String) :
    groups.Follows (register principal) (some name) members [name]
      (.error (.unknownGroup name)) := by
  have hnone : members.find? name = none := by
    rw [← Option.not_isSome_iff_eq_none, ← NameMap.contains, hcovers, hname]
    exact Bool.false_ne_true
  apply Groups.Follows.left
  rw [register, enrol, hnone]

end

/-! ### The whole -/

/-- Adding an account, with a climb to make it a member. -/
inductive Adds (groups : Groups) (c : AccountConfig) (draft : Draft) :
    Except DirectoryError Draft → Prop
  | refused {e : DirectoryError} (h : Account.ofConfig c = .error e) :
      Adds groups c draft (.error e)
  | duplicate {a : Account} (ha : Account.ofConfig c = .ok a)
      (htaken : draft.accounts.contains a.principal = true) :
      Adds groups c draft (.error (.duplicateAccount c.principal))
  | climbed {a : Account} {visited : List String} {r : Except DirectoryError Members}
      (ha : Account.ofConfig c = .ok a) (hnew : draft.accounts.contains a.principal = false)
      (h : groups.Follows (register a.principal) a.group draft.members visited r) :
      Adds groups c draft (r.map (fun members => ⟨draft.accounts.insert a.principal a, members⟩))

/-- Building a directory with searches and climbs. -/
inductive Builds (groups : Groups) (accounts : List AccountConfig) :
    Except DirectoryError Directory → Prop
  | unsound {e : DirectoryError} (h : checkGroups groups groups.toList = .error e) :
      Builds groups accounts (.error e)
  | cyclic {e : DirectoryError} (hgroups : checkGroups groups groups.toList = .ok ())
      (h : Each (Searches groups) groups.names () (.error e)) : Builds groups accounts (.error e)
  | built {r : Except DirectoryError Draft} (hgroups : checkGroups groups groups.toList = .ok ())
      (hloops : Each (Searches groups) groups.names () (.ok ()))
      (h : Each (Adds groups) accounts (.start groups) r) :
      Builds groups accounts (r.map Draft.finish)

theorem addAccount_of_new {c : AccountConfig} {a : Account} {draft : Draft}
    (ha : Account.ofConfig c = .ok a) (hnew : draft.accounts.contains a.principal = false) :
    addAccount groups draft c = (enrol a.principal (groupsOf groups a) draft.members).map
      (fun members => ⟨draft.accounts.insert a.principal a, members⟩) := by
  simp only [addAccount, ha, hnew, Bool.false_eq_true, if_false]
  cases enrol a.principal (groupsOf groups a) draft.members <;> rfl

theorem addAccount_of_taken {c : AccountConfig} {a : Account} {draft : Draft}
    (ha : Account.ofConfig c = .ok a) (htaken : draft.accounts.contains a.principal = true) :
    addAccount groups draft c = .error (.duplicateAccount c.principal) := by
  simp only [addAccount, ha, htaken, if_true]

theorem addAccounts_eq_foldlM (draft : Draft) (accounts : List AccountConfig) :
    addAccounts groups draft accounts = accounts.foldlM (addAccount groups) draft := by
  induction accounts generalizing draft with
  | nil => rfl
  | cons c accounts ih =>
      rw [addAccounts, List.foldlM_cons]
      cases addAccount groups draft c with
      | error e => rfl
      | ok next => exact ih next

theorem ofConfig_of_checks (hgroups : checkGroups groups groups.toList = .ok ())
    (hloops : checkLoops groups groups.names = .ok ()) (accounts : List AccountConfig) :
    ofConfig groups accounts =
      (addAccounts groups (.start groups) accounts).map Draft.finish := by
  unfold ofConfig
  rw [hgroups, hloops]
  cases addAccounts groups (.start groups) accounts <;> rfl

section
variable (hloops : checkLoops groups groups.names = .ok ())
include hloops

/-- Where no group leads into a cycle, a climb does what enrolment does with the list of the groups
above. -/
theorem exists_climb_iff {a : Account} {members : Members} {r : Except DirectoryError Members} :
    (∃ visited, groups.Follows (register a.principal) a.group members visited r) ↔
      r = enrol a.principal (groupsOf groups a) members := by
  have hline : groups.IsLine a.group (groupsOf groups a) := by
    unfold groupsOf
    cases a.group with
    | none => exact .nil
    | some own => exact Groups.isLine_lineage (isLoop_walk_of_checkLoops hloops own)
  obtain ⟨visited, hfollows⟩ := hline.exists_follows (register a.principal) members
  rw [← enrol_eq_foldlM] at hfollows
  constructor
  · rintro ⟨visited', hfollows'⟩
    exact (hfollows'.unique hfollows).2
  · rintro rfl
    exact ⟨visited, hfollows⟩

theorem adds_iff {c : AccountConfig} {draft : Draft} {r : Except DirectoryError Draft} :
    Adds groups c draft r ↔ r = addAccount groups draft c := by
  constructor
  · intro h
    cases h with
    | refused hrefused => rw [addAccount, hrefused]
    | duplicate ha htaken => rw [addAccount_of_taken ha htaken]
    | climbed ha hnew hfollows =>
        rw [addAccount_of_new ha hnew, (exists_climb_iff hloops).mp ⟨_, hfollows⟩]
  · rintro rfl
    cases ha : Account.ofConfig c with
    | error e =>
        rw [addAccount, ha]
        exact .refused ha
    | ok a =>
        cases hnew : draft.accounts.contains a.principal with
        | true =>
            rw [addAccount_of_taken ha hnew]
            exact .duplicate ha hnew
        | false =>
            obtain ⟨visited, hfollows⟩ := (exists_climb_iff hloops).mpr rfl
            rw [addAccount_of_new ha hnew]
            exact .climbed ha hnew hfollows

theorem each_adds_iff {accounts : List AccountConfig} {draft : Draft}
    {r : Except DirectoryError Draft} :
    Each (Adds groups) accounts draft r ↔ r = addAccounts groups draft accounts := by
  rw [addAccounts_eq_foldlM]
  apply each_iff
  intro c draft r
  exact adds_iff hloops

end

/-- The loops that build a directory end, with what is computed from the lists of groups. -/
theorem builds_iff {accounts : List AccountConfig} {r : Except DirectoryError Directory} :
    Builds groups accounts r ↔ r = ofConfig groups accounts := by
  constructor
  · intro h
    cases h with
    | unsound hgroups =>
        rw [ofConfig, hgroups]
        rfl
    | cyclic hgroups hcyclic =>
        rw [ofConfig, hgroups, ← each_searches_iff.mp hcyclic]
        rfl
    | built hgroups hsearches haccounts =>
        have hloops := (each_searches_iff.mp hsearches).symm
        rw [ofConfig_of_checks hgroups hloops, (each_adds_iff hloops).mp haccounts]
  · rintro rfl
    cases hgroups : checkGroups groups groups.toList with
    | error e =>
        rw [ofConfig, hgroups]
        exact .unsound hgroups
    | ok _ =>
        cases hloops : checkLoops groups groups.names with
        | error e =>
            rw [ofConfig, hgroups, hloops]
            exact .cyclic hgroups (each_searches_iff.mpr hloops.symm)
        | ok _ =>
            have hsearches := each_searches_iff.mpr hloops.symm
            rw [ofConfig_of_checks hgroups hloops]
            exact .built hgroups hsearches ((each_adds_iff hloops).mpr rfl)

end

/-- The loops that build a directory come to an end. -/
structure Terminates (groups : Groups) (accounts : List AccountConfig) : Prop where
  /-- A search from any group ends, and visits at most one group more than there are.  It finds
  just those cycles that the group leads into. -/
  search : ∀ name, ∃ visited r, groups.Follows (note name) (some name) [] visited r ∧
    visited.length ≤ groups.size + 1 ∧ (r = .error (.cycle name) ↔ groups.LeadsToCycle name)
  /-- So the searches from all groups end, with the answer of the walks. -/
  searches_iff : ∀ r, Each (Searches groups) groups.names () r ↔ r = checkLoops groups groups.names
  /-- If the groups pass both checks, then behind any accounts a climb from one of them ends.  It
  visits the groups above once each, and finds them all in the table. -/
  climb : checkGroups groups groups.toList = .ok () → checkLoops groups groups.names = .ok () →
    ∀ done draft, addAccounts groups (.start groups) done = .ok draft →
    ∀ principal name, groups.contains name = true → ∃ visited members,
      groups.Follows (register principal) (some name) draft.members visited (.ok members) ∧
      visited.Nodup ∧ (∀ g, g ∈ visited ↔ groups.IsAncestor name g) ∧
      ∀ g ∈ visited, draft.members.contains g = true
  /-- From any other group it ends at the first visit. -/
  climb_unknown : ∀ members : Members, members.Covers groups →
    ∀ principal name, groups.contains name = false →
      groups.Follows (register principal) (some name) members [name] (.error (.unknownGroup name))
  /-- It would not end from a group that leads into a cycle. -/
  climb_iff : HasParents groups → ∀ members : Members, members.Covers groups →
    ∀ principal name, groups.contains name = true →
      ((∃ visited r, groups.Follows (register principal) (some name) members visited r) ↔
        ¬ groups.LeadsToCycle name)
  /-- All loops together end, with the directory or the error that is computed otherwise. -/
  builds_iff : ∀ r, Builds groups accounts r ↔ r = ofConfig groups accounts

/-- **Building a directory always ends.** -/
theorem terminates_ofConfig (groups : Groups) (accounts : List AccountConfig) :
    Terminates groups accounts where
  search := by
    intro name
    obtain ⟨visited, hfollows, hlength⟩ := exists_search groups name
    refine ⟨visited, _, hfollows, hlength, ?_⟩
    rw [← Groups.repeats_iff_leadsToCycle, ← Groups.isLoop_walk_iff]
    cases (groups.walk name).isLoop <;> simp
  searches_iff _ := each_searches_iff
  climb := by
    intro hgroups hloops done draft hdraft principal name hname
    rw [checkGroups_eq, refuse_eq_ok_iff, flatMap_groupFaults_eq_nil_iff] at hgroups
    have hcovers := covers_of_addAccounts hdraft
    have hloop := isLoop_walk_of_checkLoops hloops name
    obtain ⟨members, hfollows⟩ :=
      exists_follows_register hgroups.2 hcovers hname hloop principal
    refine ⟨groups.lineage name, members, hfollows, Groups.nodup_lineage groups name, ?_, ?_⟩
    · exact fun _ => Groups.mem_lineage_iff hloop
    · exact contains_of_mem_lineage hgroups.2 hcovers hname
  climb_unknown _ hcovers principal _ hname := follows_register_of_unknown hcovers hname principal
  climb_iff hparents _ hcovers principal _ hname :=
    exists_follows_register_iff hparents hcovers hname principal
  builds_iff _ := builds_iff

end Directory
end CredentialServer
