import CredentialServer.Config.Basic

/-!
# Lines of groups

A group may have a parent, whose members its members are, too. From a group the line of its parents
is followed until it ends or comes back to a group that was met before. `IsAncestor` is the same
relation without a walk. Main statements: `nodup_lineage` (no group is met twice) and
`isAncestor_of_mem_lineage` (whatever is met is above the first).
-/

namespace CredentialServer

/-- The groups of a configuration. -/
abbrev Groups := NameMap GroupConfig

namespace Groups

/-- The parent of a group, if it is configured and has one. -/
def parent? (groups : Groups) (name : String) : Option String :=
  (groups.find? name).bind GroupConfig.parent

/-- One group is another or reached from it by parents. -/
inductive IsAncestor (groups : Groups) : String → String → Prop where
  | refl (name : String) : IsAncestor groups name name
  | step {name parent ancestor : String} (h : groups.parent? name = some parent)
      (r : IsAncestor groups parent ancestor) : IsAncestor groups name ancestor

/-- What a walk along parents met. -/
structure Walk where
  /-- The groups that were met, last one first. -/
  met : List String
  /-- The walk came to a group that it had met before. -/
  isLoop : Bool
  deriving DecidableEq, Repr

theorem mem_names_of_parent {groups : Groups} {name parent : String}
    (h : groups.parent? name = some parent) : name ∈ groups.names := by
  rw [NameMap.mem_names_iff]
  cases hf : groups.find? name with
  | none => simp [parent?, hf] at h
  | some g => exact ⟨g, rfl⟩

theorem length_filter_lt {l : List String} {met : List String} {name : String}
    (hl : name ∈ l) (hm : name ∉ met) :
    (l.filter (fun n => n ∉ name :: met)).length < (l.filter (fun n => n ∉ met)).length := by
  have hsub : l.filter (fun n => n ∉ name :: met) =
      (l.filter (fun n => n ∉ met)).filter (fun n => n ≠ name) := by
    rw [List.filter_filter]
    congr 1
    funext n
    by_cases h : n = name <;> simp [h]
  rw [hsub]
  have hmem : name ∈ l.filter (fun n => n ∉ met) := by simp [hl, hm]
  exact List.length_filter_lt_length_iff_exists.2 ⟨name, hmem, by simp⟩

/-- Follows parents from a group; `met` are the groups met before. The groups that were not met
become fewer. -/
def walkFrom (groups : Groups) (met : List String) (name : String) : Walk :=
  if _hm : name ∈ met then ⟨met, true⟩
  else match _h : groups.parent? name with
    | none => ⟨name :: met, false⟩
    | some parent => walkFrom groups (name :: met) parent
termination_by (groups.names.filter (fun n => n ∉ met)).length
decreasing_by exact length_filter_lt (mem_names_of_parent _h) _hm

def walk (groups : Groups) (name : String) : Walk := walkFrom groups [] name

/-- A group and the groups above it, nearest first, up to the first repetition. -/
def lineage (groups : Groups) (name : String) : List String := (walk groups name).met.reverse

theorem nodup_walkFrom {groups : Groups} {met : List String} (hm : met.Nodup) (name : String) :
    (walkFrom groups met name).met.Nodup := by
  fun_induction walkFrom groups met name with
  | case1 met name h => exact hm
  | case2 met name h hp => exact List.nodup_cons.2 ⟨h, hm⟩
  | case3 met name h parent hp ih => exact ih (List.nodup_cons.2 ⟨h, hm⟩)

theorem nodup_lineage (groups : Groups) (name : String) : (lineage groups name).Nodup :=
  List.pairwise_reverse.2 ((nodup_walkFrom List.nodup_nil name).imp Ne.symm)

theorem met_walkFrom {groups : Groups} {met : List String} {name : String} :
    ∀ g ∈ (walkFrom groups met name).met, g ∈ met ∨ IsAncestor groups name g := by
  fun_induction walkFrom groups met name with
  | case1 met name h => exact fun g hg => .inl hg
  | case2 met name h hp =>
    intro g hg
    rcases List.mem_cons.1 hg with rfl | hg
    · exact .inr (.refl _)
    · exact .inl hg
  | case3 met name h parent hp ih =>
    intro g hg
    rcases ih g hg with hg | hg
    · rcases List.mem_cons.1 hg with rfl | hg
      · exact .inr (.refl _)
      · exact .inl hg
    · exact .inr (.step hp hg)

theorem isAncestor_of_mem_lineage {groups : Groups} {name g : String}
    (h : g ∈ lineage groups name) : IsAncestor groups name g := by
  rcases met_walkFrom g (List.mem_reverse.1 h) with h | h
  · cases h
  · exact h

end Groups

end CredentialServer
