import CredentialServer.Directory.Account
import CredentialServer.Directory.Lineage

/-!
# Directories

A directory is the fixed table of accounts and groups that a server answers from. It is flat: a
group lists every account of its own and of the groups below it. Main definitions: `checkGroups`
and `checkLoops` say which groups can be flattened, `addAccount` adds one account to all groups of
its lineage, and `ofConfig` builds the whole.
-/

namespace CredentialServer

/-- A named set of principals, those of the groups below it included. -/
structure Group where
  name : String
  members : NameSet
  deriving DecidableEq, Repr

namespace Group

def hasMember (g : Group) (principal : String) : Bool := g.members.contains principal

def size (g : Group) : Nat := g.members.size

end Group

/-- The accounts by principal and the groups by name. -/
structure Directory where
  accounts : NameMap Account
  groups : NameMap Group
  deriving DecidableEq, Repr

namespace Directory

/-- The directory of given accounts and groups, whose members are taken as they are; of two with one
name the later counts. -/
def ofLists (accounts : List Account) (groups : List Group) : Directory where
  accounts := NameMap.ofList (accounts.map (fun a => (a.principal, a)))
  groups := NameMap.ofList (groups.map (fun g => (g.name, g)))

/-- The account of a principal, which must be kept under its own principal. -/
def account (d : Directory) (principal : String) : Except DirectoryError Account :=
  match d.accounts.find? principal with
  | none => .error (.unknownAccount principal)
  | some a =>
    if a.principal = principal then .ok a
    else .error (.principalMismatch principal a.principal)

def group (d : Directory) (name : String) : Except DirectoryError Group :=
  match d.groups.find? name with
  | some g => .ok g
  | none => .error (.unknownGroup name)

/-! ### Building a directory from a configuration -/

/-- Checks that groups have names and known parents, in order. -/
def checkGroups (groups : Groups) : List (String × GroupConfig) → Except DirectoryError Unit
  | [] => .ok ()
  | (name, g) :: rest =>
    if name = "" then .error .emptyGroupName
    else match g.parent with
      | none => checkGroups groups rest
      | some parent =>
        if groups.contains parent then checkGroups groups rest
        else .error (.unknownParent name parent)

/-- Checks that no walk from a group comes back to one that it met, in order. -/
def checkLoops (groups : Groups) : List String → Except DirectoryError Unit
  | [] => .ok ()
  | name :: rest =>
    if (groups.walk name).isLoop then .error (.cycle name) else checkLoops groups rest

/-- The members of each group so far. -/
abbrev Members := NameMap NameSet

/-- Makes a principal a member of groups, each of which must be known. -/
def enrol (principal : String) : List String → Members → Except DirectoryError Members
  | [], members => .ok members
  | name :: rest, members =>
    match members.find? name with
    | none => .error (.unknownGroup name)
    | some set => enrol principal rest (members.insert name (set.add principal))

/-- The tables under construction. -/
structure Draft where
  accounts : NameMap Account
  members : Members

/-- The groups that an account belongs to: its own and those above it. -/
def groupsOf (groups : Groups) (a : Account) : List String :=
  match a.group with
  | none => []
  | some name => groups.lineage name

def addAccount (groups : Groups) (draft : Draft) (c : AccountConfig) :
    Except DirectoryError Draft :=
  match Account.ofConfig c with
  | .error e => .error e
  | .ok a =>
    if draft.accounts.contains a.principal then .error (.duplicateAccount c.principal)
    else match enrol a.principal (groupsOf groups a) draft.members with
      | .error e => .error e
      | .ok members => .ok ⟨draft.accounts.insert a.principal a, members⟩

def addAccounts (groups : Groups) : Draft → List AccountConfig → Except DirectoryError Draft
  | draft, [] => .ok draft
  | draft, c :: rest =>
    match addAccount groups draft c with
    | .error e => .error e
    | .ok draft => addAccounts groups draft rest

/-- The tables before any account. -/
def Draft.start (groups : Groups) : Draft := ⟨∅, groups.map (fun _ _ => ∅)⟩

/-- The directory of finished tables. -/
def Draft.finish (draft : Draft) : Directory :=
  ⟨draft.accounts, draft.members.map (fun name members => ⟨name, members⟩)⟩

/-- The directory that a configuration describes. -/
def ofConfig (groups : Groups) (accounts : List AccountConfig) :
    Except DirectoryError Directory := do
  checkGroups groups groups.toList
  checkLoops groups groups.names
  let draft ← addAccounts groups (.start groups) accounts
  return draft.finish

end Directory

end CredentialServer
