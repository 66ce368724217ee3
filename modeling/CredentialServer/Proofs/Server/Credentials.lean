import CredentialServer.Server.Authentication

/-! # One credential decides

A request may show tokens and certificates together, some of them empty or not even text.  It is
judged by its first token, unless this is empty or missing (`Credentials.shown?`), and then by its
first certificate (`Credentials.leaf?`), and by nothing else: a certificate does not make up for a
token that fails.  The one effect on the registry comes before the account is looked at, so a token
is spent on an account that is then refused.  Main statement: `decidesByOne`. -/

namespace CredentialServer

/-! ### Addresses -/

namespace Address

/-- An IPv4 address embedded in IPv6. -/
def mapped (bits : BitVec 32) : Address := .v6 (0xffff#96 ++ bits)

theorem eq_append_iff (x : BitVec 128) (bits : BitVec 32) :
    x = 0xffff#96 ++ bits ↔ x >>> 32 = 0xffff ∧ x.truncate 32 = bits := by
  have hbits := bits.isLt
  rw [← BitVec.toNat_inj, ← BitVec.toNat_inj, ← BitVec.toNat_inj, BitVec.toNat_ushiftRight,
    BitVec.toNat_setWidth, BitVec.toNat_append, Nat.shiftRight_eq_div_pow,
    ← Nat.shiftLeft_add_eq_or_of_lt hbits, Nat.shiftLeft_eq]
  have hwide : (0xffff : BitVec 128).toNat = 65535 := rfl
  have hhigh : (0xffff#96).toNat = 65535 := rfl
  omega

@[simp] theorem canonical_mapped (bits : BitVec 32) : (mapped bits).canonical = .v4 bits := by
  obtain ⟨hhigh, hlow⟩ := (eq_append_iff (0xffff#96 ++ bits) bits).mp rfl
  exact (if_pos hhigh).trans (congrArg v4 hlow)

theorem canonical_cases (a : Address) : a.canonical = a ∨ ∃ bits, a = mapped bits := by
  cases a with
  | v4 bits => exact .inl rfl
  | v6 x =>
      by_cases hhigh : x >>> 32 = 0xffff
      · exact .inr ⟨x.truncate 32, congrArg v6 ((eq_append_iff x _).mpr ⟨hhigh, rfl⟩)⟩
      · exact .inl (if_neg hhigh)

/-- Two addresses have one canonical form just if they are the same, or one is the other embedded in
IPv6. -/
theorem canonical_eq_canonical_iff (a b : Address) : a.canonical = b.canonical ↔
    a = b ∨ ∃ bits, (a = .v4 bits ∧ b = mapped bits) ∨ (a = mapped bits ∧ b = .v4 bits) := by
  constructor
  · intro h
    rcases canonical_cases a with ha | ⟨bits, rfl⟩ <;>
      rcases canonical_cases b with hb | ⟨bits', rfl⟩
    · exact .inl (by rw [← ha, h, hb])
    · rw [ha, canonical_mapped] at h
      exact .inr ⟨bits', .inl ⟨h, rfl⟩⟩
    · rw [hb, canonical_mapped] at h
      exact .inr ⟨bits, .inr ⟨rfl, h.symm⟩⟩
    · rw [canonical_mapped, canonical_mapped, v4.injEq] at h
      exact .inl (by rw [h])
  · rintro (rfl | ⟨bits, ⟨rfl, rfl⟩ | ⟨rfl, rfl⟩⟩)
    · rfl
    · rw [canonical_mapped, canonical_v4]
    · rw [canonical_mapped, canonical_v4]

end Address

/-! ### Accounts -/

/-- An account is open to direct requests from an address, if it is known.  A limit need only agree
with the address in canonical form (`Address.canonical_eq_canonical_iff`). -/
structure Account.IsOpenTo (a : Account) (remote : Option Address) : Prop where
  direct : a.disableDirectAuth = false
  near : ∀ limit, a.limit = some limit →
    ∃ address, remote = some address ∧ limit.canonical = address.canonical

theorem openAccount_eq_ok_iff_isOpenTo {d : Directory} {remote : Option Address}
    {principal : String} {a : Account} :
    openAccount d remote principal = .ok a ↔ d.account principal = .ok a ∧ a.IsOpenTo remote := by
  rw [openAccount_eq_ok_iff, Account.allows_iff]
  constructor
  · rintro ⟨haccount, hdirect, hnear⟩
    exact ⟨haccount, hdirect, hnear⟩
  · rintro ⟨haccount, hdirect, hnear⟩
    exact ⟨haccount, hdirect, hnear⟩

/-! ### Claims -/

namespace Registry

/-- A token that was not claimed becomes claimed, and nothing else changes. -/
def Marks (r r' : Registry) (token : String) : Prop :=
  ∃ e, r.entries.find? token = some e ∧ e.claimed = false ∧ ∀ other,
    r'.entries.find? other =
      if other = token then some { e with claimed := true } else r.entries.find? other

theorem Marks.ne {r r' : Registry} {token : String} (h : r.Marks r' token) : r' ≠ r := by
  obtain ⟨e, he, hclaimed, hfind⟩ := h
  rintro rfl
  have hmarked : r'.entries.find? token = some { e with claimed := true } := by
    rw [hfind, if_pos rfl]
  rw [he, Option.some.injEq] at hmarked
  rw [hmarked] at hclaimed
  cases hclaimed

theorem marks_of_claim {r r' : Registry} {now : Instant} {token principal : String}
    (h : r.claim now token = .ok (principal, r')) : r.Marks r' token := by
  obtain ⟨-, e, he, -, hclaimed, -, rfl⟩ := claim_eq_ok_iff.mp h
  exact ⟨e, he, hclaimed, fun other => NameMap.find?_insert ..⟩

end Registry

/-! ### What a request is judged by -/

namespace Credentials

/-- The token that a request is judged by: its first one, unless it is empty. -/
def shown? (c : Credentials) : Option Bytes := c.tokens.head?.filter (fun value => !value.isEmpty)

/-- The certificate that a request without such a token is judged by. -/
def leaf? (c : Credentials) : Option Bytes := c.chain.bind List.head?

/-- The token that a request is judged by is text, and claiming it succeeds. -/
structure Redeems (now : Moment) (r : Registry) (c : Credentials) (token principal : String)
    (r' : Registry) : Prop where
  shown : ∃ value, c.shown? = some value ∧ Method.headerText? value = some token
  claimed : r.claim now.tokenClock token = .ok (principal, r')

/-- What a request shows proves that it comes from a principal. -/
inductive Proves (trusted : TlsAuthority) (now : Moment) (r : Registry) (c : Credentials)
    (principal : String) : Prop where
  | token {token : String} {r' : Registry} (redeems : c.Redeems now r token principal r')
  | certificate {leaf : Bytes} (shown : c.shown? = none) (first : c.leaf? = some leaf)
      (verified : trusted.verifyClient now.signingClock [leaf] = .ok principal)

theorem shown?_eq_some_iff {c : Credentials} {value : Bytes} :
    c.shown? = some value ↔ ∃ later, c.tokens = value :: later ∧ value ≠ [] := by
  unfold shown?
  cases c.tokens with
  | nil => simp
  | cons head later => simp [and_comm]

theorem leaf?_eq_some_iff {c : Credentials} {leaf : Bytes} :
    c.leaf? = some leaf ↔ ∃ rest, c.chain = some (leaf :: rest) := by
  unfold leaf?
  cases c.chain with
  | none => simp
  | some chain => cases chain <;> simp

end Credentials

section
variable {d : Directory} {trusted : TlsAuthority} {now : Moment} {r : Registry} {c : Credentials}
variable {value leaf : Bytes}

theorem Method.isAttempted_token : Method.isAttempted c .token = c.shown?.isSome := by
  unfold Method.isAttempted Credentials.shown?
  cases c.tokens.head? with
  | none => rfl
  | some head => cases head <;> rfl

theorem Method.isAttempted_clientCertificate :
    Method.isAttempted c .clientCertificate = c.leaf?.isSome := by
  unfold Method.isAttempted Credentials.leaf?
  cases c.chain with
  | none => rfl
  | some chain => cases chain <;> rfl

theorem find?_isAttempted : Method.all.find? (Method.isAttempted c) =
    if c.shown?.isSome then some .token
    else if c.leaf?.isSome then some .clientCertificate else none := by
  simp only [Method.all, List.find?_cons, List.find?_nil, Method.isAttempted_token,
    Method.isAttempted_clientCertificate]
  cases c.shown? <;> cases c.leaf? <;> rfl

/-- A token is the first thing to look at, and the last. -/
theorem authenticate_of_shown (h : c.shown? = some value) :
    authenticate d trusted now r c = match Method.headerText? value with
      | none => (.error .invalidHeader, r)
      | some token => match r.claim now.tokenClock token with
        | .error e => (.error (.token e), r)
        | .ok (principal, r') => (openAccount d c.remote principal, r') := by
  have hmethod : Method.all.find? (Method.isAttempted c) = some .token := by
    rw [find?_isAttempted, h]
    rfl
  obtain ⟨later, htokens, -⟩ := Credentials.shown?_eq_some_iff.mp h
  unfold authenticate
  simp only [hmethod, Method.verify, htokens, List.head?_cons]
  cases Method.headerText? value with
  | none => rfl
  | some token => cases hclaim : r.claim now.tokenClock token <;> simp only [hclaim]

/-- Of certificates only the first is looked at, and only if there is no token. -/
theorem authenticate_of_leaf (h : c.shown? = none) (hleaf : c.leaf? = some leaf) :
    authenticate d trusted now r c = match trusted.verifyClient now.signingClock [leaf] with
      | .error e => (.error (.certificate e), r)
      | .ok principal => (openAccount d c.remote principal, r) := by
  have hmethod : Method.all.find? (Method.isAttempted c) = some .clientCertificate := by
    rw [find?_isAttempted, h, hleaf]
    rfl
  obtain ⟨rest, hchain⟩ := Credentials.leaf?_eq_some_iff.mp hleaf
  have hrest : trusted.verifyClient now.signingClock (leaf :: rest) =
      trusted.verifyClient now.signingClock [leaf] := rfl
  unfold authenticate
  simp only [hmethod, Method.verify, hchain, hrest]
  cases trusted.verifyClient now.signingClock [leaf] <;> rfl

theorem authenticate_of_nothing (h : c.shown? = none) (hleaf : c.leaf? = none) :
    authenticate d trusted now r c = (.error .noAttempt, r) := by
  have hmethod : Method.all.find? (Method.isAttempted c) = none := by
    rw [find?_isAttempted, h, hleaf]
    rfl
  unfold authenticate
  rw [hmethod]

/-! ### Outcome and effect -/

theorem authenticate_of_redeems {token principal : String} {r' : Registry}
    (h : c.Redeems now r token principal r') :
    authenticate d trusted now r c = (openAccount d c.remote principal, r') := by
  obtain ⟨⟨value, hshown, htext⟩, hclaim⟩ := h
  rw [authenticate_of_shown hshown]
  simp only [htext, hclaim]

/-- A token that cannot be redeemed is refused, and stays as it is. -/
theorem authenticate_of_not_redeems (d : Directory) (trusted : TlsAuthority)
    (h : c.shown? = some value)
    (hnot : ¬ ∃ token principal r', c.Redeems now r token principal r') :
    ∃ e, authenticate d trusted now r c = (.error e, r) := by
  rw [authenticate_of_shown h]
  cases htext : Method.headerText? value with
  | none => exact ⟨.invalidHeader, rfl⟩
  | some token =>
      cases hclaim : r.claim now.tokenClock token with
      | error e => exact ⟨.token e, by simp only [hclaim]⟩
      | ok result => exact absurd ⟨token, result.1, result.2, ⟨value, h, htext⟩, hclaim⟩ hnot

/-- A request is judged by one thing that it shows, and claims at most that. -/
structure DecidesByOne (d : Directory) (trusted : TlsAuthority) (now : Moment) (r : Registry)
    (c : Credentials) : Prop where
  /-- Beside a token, neither certificates nor further tokens count. -/
  token_only : ∀ value, c.shown? = some value → ∀ later chain trusted',
    authenticate d trusted' now r ⟨value :: later, chain, c.remote⟩ =
      authenticate d trusted now r c
  /-- A token that is redeemed is marked, whatever becomes of the request. -/
  marks : ∀ token principal r', c.Redeems now r token principal r' →
    (authenticate d trusted now r c).2 = r' ∧ r.Marks r' token
  /-- There is no other change. -/
  changes_iff : (authenticate d trusted now r c).2 ≠ r ↔
    ∃ token principal r', c.Redeems now r token principal r'
  /-- Without a token, the registry is neither read nor written. -/
  apart : c.shown? = none → ∀ r',
    authenticate d trusted now r' c = ((authenticate d trusted now r c).1, r')
  nothing : c.shown? = none → c.leaf? = none →
    (authenticate d trusted now r c).1 = .error .noAttempt
  /-- Without a token, the first certificate is judged. -/
  leaf : ∀ leaf, c.shown? = none → c.leaf? = some leaf → (authenticate d trusted now r c).1 =
    match trusted.verifyClient now.signingClock [leaf] with
    | .error e => .error (.certificate e)
    | .ok principal => openAccount d c.remote principal
  /-- It takes a proof of a principal whose account is open. -/
  accepts_iff : ∀ a, (authenticate d trusted now r c).1 = .ok a ↔
    ∃ principal, c.Proves trusted now r principal ∧ d.account principal = .ok a ∧
      a.IsOpenTo c.remote

theorem authenticate_token_only (h : c.shown? = some value) (later : List Bytes)
    (chain : Option (List Bytes)) (trusted' : TlsAuthority) :
    authenticate d trusted' now r ⟨value :: later, chain, c.remote⟩ =
      authenticate d trusted now r c := by
  obtain ⟨_, -, hvalue⟩ := Credentials.shown?_eq_some_iff.mp h
  have hshown : Credentials.shown? ⟨value :: later, chain, c.remote⟩ = some value :=
    Credentials.shown?_eq_some_iff.mpr ⟨later, rfl, hvalue⟩
  rw [authenticate_of_shown hshown, authenticate_of_shown h]

theorem authenticate_apart (h : c.shown? = none) (r' : Registry) :
    authenticate d trusted now r' c = ((authenticate d trusted now r c).1, r') := by
  cases hleaf : c.leaf? with
  | none => rw [authenticate_of_nothing h hleaf, authenticate_of_nothing h hleaf]
  | some leaf =>
      rw [authenticate_of_leaf h hleaf, authenticate_of_leaf h hleaf]
      cases trusted.verifyClient now.signingClock [leaf] <;> rfl

theorem registry_authenticate_ne_iff : (authenticate d trusted now r c).2 ≠ r ↔
    ∃ token principal r', c.Redeems now r token principal r' := by
  constructor
  · intro hne
    apply Classical.byContradiction
    intro hnot
    cases hshown : c.shown? with
    | none =>
        have hsame : (authenticate d trusted now r c).2 = r :=
          congrArg Prod.snd (authenticate_apart (r := r) hshown r)
        exact hne hsame
    | some value =>
        obtain ⟨e, he⟩ := authenticate_of_not_redeems d trusted hshown hnot
        rw [he] at hne
        exact hne rfl
  · rintro ⟨token, principal, r', h⟩
    rw [authenticate_of_redeems h]
    exact (Registry.marks_of_claim h.claimed).ne

theorem authenticate_fst_eq_ok_iff (a : Account) : (authenticate d trusted now r c).1 = .ok a ↔
    ∃ principal, c.Proves trusted now r principal ∧ openAccount d c.remote principal = .ok a := by
  constructor
  · intro ha
    cases hshown : c.shown? with
    | some value =>
        by_cases hredeems : ∃ token principal r', c.Redeems now r token principal r'
        · obtain ⟨token, principal, r', h⟩ := hredeems
          rw [authenticate_of_redeems h] at ha
          exact ⟨principal, .token h, ha⟩
        · obtain ⟨e, he⟩ := authenticate_of_not_redeems d trusted hshown hredeems
          rw [he] at ha
          cases ha
    | none =>
        cases hleaf : c.leaf? with
        | none =>
            rw [authenticate_of_nothing hshown hleaf] at ha
            cases ha
        | some leaf =>
            rw [authenticate_of_leaf hshown hleaf] at ha
            cases hverify : trusted.verifyClient now.signingClock [leaf] with
            | error e =>
                rw [hverify] at ha
                cases ha
            | ok principal =>
                rw [hverify] at ha
                exact ⟨principal, .certificate hshown hleaf hverify, ha⟩
  · rintro ⟨principal, hproves, ha⟩
    cases hproves with
    | token hredeems =>
        rw [authenticate_of_redeems hredeems]
        exact ha
    | certificate hshown hleaf hverify =>
        rw [authenticate_of_leaf hshown hleaf, hverify]
        exact ha

/-- **One credential decides**, for every request, directory, authority, registry and moment. -/
theorem decidesByOne (d : Directory) (trusted : TlsAuthority) (now : Moment) (r : Registry)
    (c : Credentials) : DecidesByOne d trusted now r c := by
  constructor
  case token_only => exact fun value h later chain trusted' => authenticate_token_only h _ _ _
  case marks =>
    intro token principal r' h
    rw [authenticate_of_redeems h]
    exact ⟨rfl, Registry.marks_of_claim h.claimed⟩
  case changes_iff => exact registry_authenticate_ne_iff
  case apart => exact fun h r' => authenticate_apart h r'
  case nothing =>
    intro h hleaf
    rw [authenticate_of_nothing h hleaf]
  case leaf =>
    intro leaf h hleaf
    rw [authenticate_of_leaf h hleaf]
    cases trusted.verifyClient now.signingClock [leaf] <;> rfl
  case accepts_iff =>
    intro a
    rw [authenticate_fst_eq_ok_iff]
    simp only [openAccount_eq_ok_iff_isOpenTo]

end

end CredentialServer
