import CredentialServer.Config.Basic
import CredentialServer.Directory.Error
import CredentialServer.Net.Address

/-!
# Accounts

An account is an identity that requests act as. It may be closed to direct requests, or open to
them from one address only. Its metadata fill the variables of templates, and always say its
principal. Main statements: `ofConfig_eq_ok`, `metadata_ofConfig` and `allows_iff`.
-/

namespace CredentialServer

/-- An identity that requests act as. -/
structure Account where
  principal : String
  group : Option String
  /-- The account acts only after an impersonation. -/
  disableDirectAuth : Bool
  /-- The only address that direct requests may come from. -/
  limit : Option Address
  metadata : NameMap String
  deriving DecidableEq, Repr

namespace Account

/-- The variable that always has the principal. -/
abbrev principalKey : String := "principal"

/-- An account without group and restrictions. -/
def ofPrincipal (principal : String) : Account where
  principal := principal
  group := none
  disableDirectAuth := false
  limit := none
  metadata := NameMap.empty.insert principalKey principal

/-- Whether a request from an address, if it is known, may act directly as the account. -/
def allows (a : Account) (remote : Option Address) : Bool :=
  match a.limit with
  | none => true
  | some limit =>
    match remote with
    | none => false
    | some address => limit = address ∨ limit.canonical = address.canonical

/-- An account without a limit is open to all; one with a limit only to the address that is, in
canonical form, the limit. -/
theorem allows_iff (a : Account) (remote : Option Address) : a.allows remote = true ↔
    ∀ limit, a.limit = some limit →
      ∃ address, remote = some address ∧ limit.canonical = address.canonical := by
  simp only [allows]
  cases a.limit with
  | none => simp
  | some limit =>
    cases remote with
    | none => simp
    | some address =>
      simp only [decide_eq_true_eq, Option.some.injEq, exists_eq_left', forall_eq']
      exact ⟨fun h => h.elim (fun e => by rw [e]) id, .inr⟩

/-- The address in the metadata of an account. -/
def limitText (c : AccountConfig) : String := (c.metadata.find? "ip").getD ""

/-- The account that a configuration describes. -/
def ofConfig (c : AccountConfig) : Except DirectoryError Account :=
  if c.principal = "" then .error .emptyPrincipal
  else
    let account (limit : Option Address) : Account :=
      { principal := c.principal
        group := c.group
        disableDirectAuth := c.disableDirectAuth
        limit := limit
        metadata := c.metadata.insert principalKey c.principal }
    if c.limitAddress then
      match Address.parse? (limitText c) with
      | some limit => .ok (account (some limit))
      | none => .error (.invalidLimit c.principal (limitText c))
    else .ok (account none)

theorem ofConfig_eq_ok {c : AccountConfig} {a : Account} (h : ofConfig c = .ok a) :
    c.principal ≠ "" ∧ a.principal = c.principal ∧ a.group = c.group ∧
      a.disableDirectAuth = c.disableDirectAuth ∧
      a.metadata = c.metadata.insert principalKey c.principal ∧
      (c.limitAddress = true → ∃ limit, a.limit = some limit ∧
        Address.parse? (limitText c) = some limit) ∧
      (c.limitAddress = false → a.limit = none) := by
  simp only [ofConfig] at h
  split at h
  · cases h
  · next hp =>
    split at h
    · next hl =>
      split at h
      · next limit hlimit => cases h; simp [hp, hl, hlimit]
      · cases h
    · next hl => cases h; simp [hp, hl]

/-- The principal is a variable, whatever the configuration says. -/
theorem metadata_ofConfig {c : AccountConfig} {a : Account} (h : ofConfig c = .ok a) :
    a.metadata.find? principalKey = some a.principal := by
  obtain ⟨_, hp, _, _, hm, _⟩ := ofConfig_eq_ok h
  rw [hm, NameMap.find?_insert, if_pos rfl, hp]

end Account

end CredentialServer
