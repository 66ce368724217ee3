import CredentialServer.Authority.Tls
import CredentialServer.Directory.Basic
import CredentialServer.Token.Registry

/-!
# Who a request comes from

A request shows a token or a chain of certificates, and a token comes first: whoever shows one is
judged by it alone. The principal that is proved this way must have an account that is open to
direct requests from the address of the request. Main statements: `authenticate_eq_ok` says what a
successful request proved, and `registry_authenticate` which tokens it can have changed.
-/

namespace CredentialServer

/-- What a request shows of its sender. -/
structure Credentials where
  /-- The values of all token headers, in order. -/
  tokens : List Bytes
  /-- The certificates of the connection, if it has any to show. -/
  chain : Option (List Bytes)
  /-- The address that the request comes from, if it is known. -/
  remote : Option Address
  deriving DecidableEq, Repr

/-- Why a request is not accepted. -/
inductive AuthenticationError where
  | noAttempt
  | invalidHeader
  | token (e : TokenError)
  | certificate (e : AuthorityError)
  | directory (e : DirectoryError)
  | directAuthDisabled (principal : String)
  | wrongAddress (expected : Address) (found : Option Address)
  deriving DecidableEq, Repr

/-- An address that may be unknown. -/
def remoteText : Option Address → String
  | none => "None"
  | some a => "Some(" ++ a.text ++ ")"

/-- What an error says, if it has a text of its own. -/
def AuthenticationError.message? : AuthenticationError → Option String
  | .noAttempt => some "no authentication method found in request"
  | .invalidHeader => some "malformed X-Bootstrap-Token header"
  | .token e => some e.message
  | .certificate e => e.message?
  | .directory e => some e.message
  | .directAuthDisabled principal =>
    some ("account has disabled direct authentication: " ++ principal)
  | .wrongAddress expected found =>
    some ("attempt to interact with api from wrong address: " ++ remoteText found ++
      " instead of " ++ expected.text)

/-- The ways to prove a principal, in the order in which they are tried. -/
inductive Method where
  | token
  | clientCertificate
  deriving DecidableEq, Repr

namespace Method

def all : List Method := [.token, .clientCertificate]

def text : Method → String
  | .token => "token"
  | .clientCertificate => "client-certificate"

/-- Whether a request tries to prove its sender this way. -/
def isAttempted (c : Credentials) : Method → Bool
  | .token => c.tokens.head?.any (fun value => !value.isEmpty)
  | .clientCertificate => c.chain.any (fun chain => !chain.isEmpty)

/-- Whether an octet may stand in a header that is text. -/
def isHeaderText (x : UInt8) : Bool := x == 9 || (0x20 ≤ x && x < 0x7f)

def headerText? (value : Bytes) : Option String :=
  if value.all isHeaderText then some (String.ofList (value.map (fun x => Char.ofNat x.toNat)))
  else none

/-- The principal that a request proves this way. -/
def verify (trusted : TlsAuthority) (now : Moment) (r : Registry) (c : Credentials) :
    Method → Except AuthenticationError (String × Registry)
  | .token =>
    match c.tokens.head? with
    | none => .error .noAttempt
    | some value =>
      match headerText? value with
      | none => .error .invalidHeader
      | some s =>
        match r.claim now.tokenClock s with
        | .ok result => .ok result
        | .error e => .error (.token e)
  | .clientCertificate =>
    match c.chain with
    | none => .error .noAttempt
    | some chain =>
      match trusted.verifyClient now.signingClock chain with
      | .ok principal => .ok (principal, r)
      | .error e => .error (.certificate e)

end Method

/-- The account of a principal, if it is open to direct requests from an address. -/
def openAccount (directory : Directory) (remote : Option Address) (principal : String) :
    Except AuthenticationError Account :=
  match directory.account principal with
  | .error e => .error (.directory e)
  | .ok account =>
    if account.disableDirectAuth then .error (.directAuthDisabled principal)
    else match account.limit with
      | none => .ok account
      | some limit =>
        if account.allows remote then .ok account else .error (.wrongAddress limit remote)

/-- The account that a request may act as. A token that was accepted stays claimed even if the
account is refused. -/
def authenticate (directory : Directory) (trusted : TlsAuthority) (now : Moment) (r : Registry)
    (c : Credentials) : Except AuthenticationError Account × Registry :=
  match Method.all.find? (Method.isAttempted c) with
  | none => (.error .noAttempt, r)
  | some method =>
    match method.verify trusted now r c with
    | .error e => (.error e, r)
    | .ok (principal, r) => (openAccount directory c.remote principal, r)

/-- An open account is open to direct requests, and to the address of this one. -/
theorem openAccount_eq_ok_iff {directory : Directory} {remote : Option Address}
    {principal : String} {a : Account} : openAccount directory remote principal = .ok a ↔
      directory.account principal = .ok a ∧ a.disableDirectAuth = false ∧
        a.allows remote = true := by
  simp only [openAccount]
  cases directory.account principal with
  | error e => simp
  | ok b =>
    simp only [Except.ok.injEq]
    cases hd : b.disableDirectAuth with
    | true =>
      simp only [if_true, reduceCtorEq, false_iff, not_and]
      rintro rfl h; rw [hd] at h; cases h
    | false =>
      simp only [Bool.false_eq_true, if_false]
      cases hl : b.limit with
      | none =>
        simp only [Except.ok.injEq]
        constructor
        · rintro rfl; exact ⟨rfl, hd, by simp [Account.allows, hl]⟩
        · exact fun h => h.1
      | some limit =>
        by_cases ha : b.allows remote = true
        · simp only [ha, if_true, Except.ok.injEq]
          constructor
          · rintro rfl; exact ⟨rfl, hd, ha⟩
          · exact fun h => h.1
        · simp only [ha, Bool.false_eq_true, if_false, reduceCtorEq, false_iff, not_and]
          rintro rfl _ h; exact ha h

/-- A request that is accepted proved a principal in the first way that it tried, and the account of
that principal is open. -/
theorem authenticate_eq_ok {directory : Directory} {trusted : TlsAuthority} {now : Moment}
    {r r' : Registry} {c : Credentials} {a : Account}
    (h : authenticate directory trusted now r c = (.ok a, r')) :
    ∃ method principal, Method.all.find? (Method.isAttempted c) = some method ∧
      method.verify trusted now r c = .ok (principal, r') ∧
      openAccount directory c.remote principal = .ok a := by
  simp only [authenticate] at h
  split at h
  · cases h
  · next method hm =>
    split at h
    · cases h
    · next principal r₁ hv =>
      simp only [Prod.mk.injEq] at h
      obtain ⟨ha, rfl⟩ := h
      exact ⟨method, principal, hm, hv, ha⟩

/-- A request changes no token, or claims the first one that it shows. -/
theorem registry_authenticate (directory : Directory) (trusted : TlsAuthority) (now : Moment)
    (r : Registry) (c : Credentials) :
    (authenticate directory trusted now r c).2 = r ∨
      Method.all.find? (Method.isAttempted c) = some .token ∧
      ∃ value token principal, c.tokens.head? = some value ∧
        Method.headerText? value = some token ∧ r.claim now.tokenClock token =
          .ok (principal, (authenticate directory trusted now r c).2) := by
  simp only [authenticate]
  split
  · exact .inl rfl
  · next method hm =>
    split
    · exact .inl rfl
    · next principal r₁ hv =>
      cases method with
      | clientCertificate =>
        simp only [Method.verify] at hv
        split at hv
        · cases hv
        · split at hv <;> cases hv; exact .inl rfl
      | token =>
        simp only [Method.verify] at hv
        split at hv
        · cases hv
        · next value hvalue =>
          split at hv
          · cases hv
          · next token ht =>
            split at hv
            · next result hc => cases hv; exact .inr ⟨hm, value, token, principal, hvalue, ht, hc⟩
            · cases hv

end CredentialServer
