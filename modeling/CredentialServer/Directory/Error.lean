import CredentialServer.Text.Quoted

/-!
# What can go wrong with accounts and groups

Main definition: `DirectoryError.message` gives the texts.
-/

namespace CredentialServer

/-- Why a directory cannot be built or has no answer. -/
inductive DirectoryError where
  | emptyGroupName
  | unknownParent (group parent : String)
  | cycle (group : String)
  | emptyPrincipal
  | duplicateAccount (principal : String)
  | unknownGroup (group : String)
  | invalidLimit (principal value : String)
  | unknownAccount (principal : String)
  /-- The account that is kept for a principal is that of another. -/
  | principalMismatch (expected found : String)
  deriving DecidableEq, Repr

def DirectoryError.message : DirectoryError → String
  | .emptyGroupName => "a group name is required"
  | .unknownParent group parent => s!"cannot find group {parent} to be a subgroup of in {group}"
  | .cycle group => s!"subgroup_of cycle detected involving group {group}"
  | .emptyPrincipal => "an account principal is required"
  | .duplicateAccount principal => s!"duplicate account {principal}"
  | .unknownGroup group => s!"no such group {group}"
  | .invalidLimit principal value =>
    "invalid limit ip " ++ quoted value ++ " for account " ++ principal
  | .unknownAccount principal => s!"cannot find account for principal {principal}"
  | .principalMismatch expected found =>
    s!"mismatched principal during lookup: expected {expected}, found {found}"

end CredentialServer
