import CredentialServer.NameMap
import CredentialServer.Time.Moment
import CredentialServer.Token.Format

/-!
# Registries of tokens

A registry keeps the tokens that it granted, each with the principal that it stands for, the instant
at which it expires and whether it was claimed. A grant first forgets what has expired. Main
statements: `find?_purge` says what is forgotten, `grant_eq_ok` what a grant leaves,
`claim_eq_ok_iff` when a claim succeeds, and `isSome_freshToken?` that a token is found unless there
are as many as octets can write.
-/

namespace CredentialServer

/-- Why a token is not granted or not accepted. -/
inductive TokenError where
  | unrecognized
  | expired
  | alreadyClaimed
  | lifespanOutOfRange
  /-- Every token is taken. -/
  | exhausted
  deriving DecidableEq, Repr

def TokenError.message : TokenError → String
  | .unrecognized => "unrecognized token"
  | .expired => "cannot claim expired token"
  | .alreadyClaimed => "token already claimed"
  | .lifespanOutOfRange => "token lifespan is out of range"
  | .exhausted => "no token is left"

/-- A token that was granted. -/
structure TokenEntry where
  token : String
  subject : String
  expires : Instant
  claimed : Bool
  deriving DecidableEq, Repr

/-- Whether a token has expired at an instant. -/
def TokenEntry.hasExpired (e : TokenEntry) (now : Instant) : Bool := decide (e.expires ≤ now)

/-- The tokens that were granted and not forgotten. -/
structure Registry where
  entries : NameMap TokenEntry
  deriving DecidableEq, Repr

namespace Registry

def empty : Registry := ⟨∅⟩

instance : Inhabited Registry := ⟨empty⟩

/-- The last instant at which a token can expire. -/
def lastInstant : Instant := ⟨8210266876799999999999⟩

def size (r : Registry) : Nat := r.entries.size

/-- The registry without the tokens that have expired. -/
def purge (r : Registry) (now : Instant) : Registry :=
  ⟨r.entries.filter (fun _ e => !e.hasExpired now)⟩

/-- The octets of the `n`-th token to try: random ones for the first `tries` tokens, and the numbers
from zero on for those behind them. -/
def candidate (now : Moment) (tries n : Nat) : Bytes :=
  if n < tries then now.octets (n * Token.octetCount) Token.octetCount
  else Bytes.ofNat Token.octetCount (n - tries)

/-- The first of `count` tokens from the `n`-th on that is not taken. -/
def firstFree? (r : Registry) (f : Nat → Bytes) : Nat → Nat → Option String
  | 0, _ => none
  | count + 1, n =>
    let token := Token.ofOctets (f n)
    if r.entries.contains token then r.firstFree? f count (n + 1) else some token

/-- A token that is not taken: of random octets, unless more draws in a row than there are tokens
hit one that is. -/
def freshToken? (r : Registry) (now : Moment) : Option String :=
  r.firstFree? (candidate now (r.size + 1)) (2 * (r.size + 1)) 0

/-- Grants a token for a principal. Expired tokens are forgotten, unless the new one would expire
too late. -/
def grant (r : Registry) (now : Moment) (subject : String) (lifespan : Span) :
    Except TokenError (String × Registry) :=
  let expires := now.tokenClock + lifespan
  if lastInstant < expires then .error .lifespanOutOfRange
  else
    let r := r.purge now.tokenClock
    match r.freshToken? now with
    | some token => .ok (token, ⟨r.entries.insert token ⟨token, subject, expires, false⟩⟩)
    | none => .error .exhausted

/-- Claims a token: the principal that it stands for. A token is claimed once, before it expires. -/
def claim (r : Registry) (now : Instant) (token : String) : Except TokenError (String × Registry) :=
  if Token.isWellFormed token then
    match r.entries.find? token with
    | none => .error .unrecognized
    | some e =>
      if e.hasExpired now then .error .expired
      else if e.claimed then .error .alreadyClaimed
      else .ok (e.subject, ⟨r.entries.insert token { e with claimed := true }⟩)
  else .error .unrecognized

/-- A token as it stands. -/
def lookup (r : Registry) (token : String) : Except TokenError TokenEntry :=
  match r.entries.find? token with
  | some e => .ok e
  | none => .error .unrecognized

/-! ### What the operations leave -/

theorem find?_purge (r : Registry) (now : Instant) (token : String) :
    (r.purge now).entries.find? token =
      (r.entries.find? token).filter (fun e => !e.hasExpired now) := by
  rw [purge, NameMap.find?_filter]

theorem length_candidate (now : Moment) (tries n : Nat) :
    (candidate now tries n).length = Token.octetCount := by
  rw [candidate]
  split <;> simp

theorem firstFree?_eq_some {r : Registry} {f : Nat → Bytes} {count n : Nat} {t : String}
    (h : r.firstFree? f count n = some t) :
    r.entries.contains t = false ∧ ∃ k, n ≤ k ∧ k < n + count ∧ t = Token.ofOctets (f k) := by
  induction count generalizing n with
  | zero => cases h
  | succ count ih =>
    simp only [firstFree?] at h
    split at h
    · obtain ⟨ht, k, hk, hk', e⟩ := ih h
      exact ⟨ht, k, by omega, by omega, e⟩
    · next hc =>
      cases h
      exact ⟨by simpa using hc, n, by omega, by omega, rfl⟩

theorem firstFree?_eq_none {r : Registry} {f : Nat → Bytes} {count n : Nat}
    (h : r.firstFree? f count n = none) :
    ∀ k, n ≤ k → k < n + count → r.entries.contains (Token.ofOctets (f k)) = true := by
  induction count generalizing n with
  | zero => intro k h₁ h₂; omega
  | succ count ih =>
    simp only [firstFree?] at h
    split at h
    · next hc =>
      intro k h₁ h₂
      by_cases hk : k = n
      · exact hk ▸ hc
      · exact ih h k (by omega) (by omega)
    · cases h

theorem freshToken?_eq_some {r : Registry} {now : Moment} {t : String}
    (h : r.freshToken? now = some t) :
    r.entries.find? t = none ∧ Token.isWellFormed t = true := by
  obtain ⟨hf, k, -, -, rfl⟩ := firstFree?_eq_some h
  exact ⟨by simpa [NameMap.contains] using hf,
    Token.isWellFormed_ofOctets (length_candidate _ _ _)⟩

/-- There is a fresh token unless there are as many tokens as octets can write. -/
theorem isSome_freshToken? {r : Registry} (h : r.size < Bytes.limit Token.octetCount)
    (now : Moment) : (r.freshToken? now).isSome = true := by
  cases hf : r.freshToken? now with
  | some t => rfl
  | none =>
    let number (i : Nat) : String := Token.ofOctets (Bytes.ofNat Token.octetCount i)
    have taken : ∀ i, i < r.size + 1 → r.entries.contains (number i) = true := by
      intro i hi
      have := firstFree?_eq_none hf (r.size + 1 + i) (by omega) (by omega)
      rwa [candidate, if_neg (by omega), Nat.add_sub_cancel_left] at this
    have distinct : ((List.range (r.size + 1)).map number).Nodup := by
      rw [List.nodup_iff_pairwise_ne, List.pairwise_map]
      refine List.Pairwise.imp_of_mem ?_ List.nodup_range
      intro a b ha hb hne e
      rw [List.mem_range] at ha hb
      have he := Token.ofOctets_inj (Bytes.length_ofNat _ _) (Bytes.length_ofNat _ _) e
      apply hne
      rw [← Bytes.toNat_ofNat (show a < Bytes.limit Token.octetCount by omega), he,
        Bytes.toNat_ofNat (by omega)]
    have := NameMap.length_le_size distinct (by
      intro name hn
      obtain ⟨i, hi, rfl⟩ := List.mem_map.1 hn
      exact taken i (List.mem_range.1 hi))
    rw [List.length_map, List.length_range] at this
    exact absurd this (Nat.not_succ_le_self _)

/-- A grant forgets what has expired and adds one token, which is not taken. -/
theorem grant_eq_ok {r s : Registry} {now : Moment} {subject t : String} {lifespan : Span}
    (h : r.grant now subject lifespan = .ok (t, s)) :
    now.tokenClock + lifespan ≤ lastInstant ∧
      (r.purge now.tokenClock).entries.find? t = none ∧ Token.isWellFormed t = true ∧
      s.entries = (r.purge now.tokenClock).entries.insert t
        ⟨t, subject, now.tokenClock + lifespan, false⟩ := by
  simp only [grant] at h
  split at h
  · cases h
  · next hle =>
    split at h
    · next token ht =>
      cases h
      obtain ⟨hn, hw⟩ := freshToken?_eq_some ht
      exact ⟨Int.not_lt.1 hle, hn, hw, rfl⟩
    · cases h

/-- A claim marks one token, which is as its form says, is there, has not expired and was not claimed
before. -/
theorem claim_eq_ok_iff {r s : Registry} {now : Instant} {token subject : String} :
    r.claim now token = .ok (subject, s) ↔ Token.isWellFormed token = true ∧
      ∃ e, r.entries.find? token = some e ∧ e.hasExpired now = false ∧ e.claimed = false ∧
        e.subject = subject ∧ s = ⟨r.entries.insert token { e with claimed := true }⟩ := by
  unfold claim
  cases hw : Token.isWellFormed token with
  | false => simp
  | true =>
    cases hf : r.entries.find? token with
    | none => simp
    | some e =>
      cases hx : e.hasExpired now with
      | true => simp [hx]
      | false =>
        cases hc : e.claimed with
        | true => simp [hx, hc]
        | false =>
          simp only [if_true, hx, hc, Bool.false_eq_true, if_false, Except.ok.injEq, Prod.mk.injEq,
            Option.some.injEq, exists_eq_left', true_and]
          exact and_congr_right fun _ => eq_comm

end Registry

end CredentialServer
