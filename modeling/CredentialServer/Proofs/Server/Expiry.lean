import CredentialServer.Proofs.Authority.Leading
import CredentialServer.Proofs.Server.Atomicity
import CredentialServer.Proofs.Time.Ranges

/-! # Lifespans and clocks add up

A token, a line of a key and a certificate get their ends in three ways: as dates of one calendar,
as seconds in a word, and as dates of another calendar.  Each of them has limits of its own, on
lifespans, on sums, and on what can be written.  An end is the exact sum of the clock and the
lifespan, or else the lifespan is refused; what follows says for which sums.  Main statement:
`addsLifespans`. -/

namespace CredentialServer

/-! ### Tokens -/

namespace Registry

/-- The dates of tokens.  Spans are counted in 2^63 - 1 milliseconds at most. -/
def dates : Dates where
  first := .ofSeconds (Date.toSeconds ⟨-262143, 1, 1, 0, 0, 0⟩)
  last := .lastBefore ⟨262143, 1, 1, 0, 0, 0⟩
  longest := (UInt64.size / 2 - 1) * 1000000
  reaches := by decide

theorem lastInstant_eq : lastInstant = dates.last := by decide

end Registry

namespace InPlace

open Registry

variable {s : Session} {now : Moment} {subject : String} {lifespan : Span}

/-- A grant is refused before anything changes, or gives the first token that is free. -/
theorem run_grant_eq (s : Session) (now : Moment) (subject : String) (lifespan : Span) :
    (grant now subject lifespan).run.run s =
      if lastInstant < now.tokenClock + lifespan then some (.error .lifespanOutOfRange, s)
      else ((s.registry.purge now.tokenClock).freshToken? now).map (fun token =>
        (.ok token, { s with registry := ⟨(s.registry.purge now.tokenClock).entries.insert token
          ⟨token, subject, now.tokenClock + lifespan, false⟩⟩ })) := by
  rw [run_grant, Registry.grant]
  by_cases hlate : lastInstant < now.tokenClock + lifespan
  · simp only [if_pos hlate]
    rfl
  · simp only [if_neg hlate]
    cases (s.registry.purge now.tokenClock).freshToken? now <;> rfl

/-- A token lasts as long as it is granted for, or is not granted at all. -/
structure GrantsUntil (s : Session) (now : Moment) (subject : String) (lifespan : Span) :
    Prop where
  /-- The end is computed with dates, and the lifespan is refused just if there is none. -/
  refused_iff : dates.first ≤ now.tokenClock →
    ((grant now subject lifespan).run.run s = some (.error .lifespanOutOfRange, s) ↔
      dates.later? now.tokenClock lifespan = none)
  /-- There is none just if the sum is past the last date. -/
  late_iff : (grant now subject lifespan).run.run s = some (.error .lifespanOutOfRange, s) ↔
    lastInstant < now.tokenClock + lifespan
  /-- Nothing else goes wrong, and nothing is forgotten when it does. -/
  unpurged : ∀ err t, (grant now subject lifespan).run.run s = some (.error err, t) →
    err = .lifespanOutOfRange ∧ t = s
  /-- Otherwise there is a token, if there are any left. -/
  granted : ¬ lastInstant < now.tokenClock + lifespan →
    (s.registry.purge now.tokenClock).size < Bytes.limit Token.octetCount →
      ∃ token t, (grant now subject lifespan).run.run s = some (.ok token, t)
  /-- What is stored is the sum. -/
  stored : ∀ token t, (grant now subject lifespan).run.run s = some (.ok token, t) →
    t.registry.lookup token = .ok ⟨token, subject, now.tokenClock + lifespan, false⟩

theorem grantsUntil (s : Session) (now : Moment) (subject : String) (lifespan : Span) :
    GrantsUntil s now subject lifespan := by
  have hrun := run_grant_eq s now subject lifespan
  by_cases hlate : lastInstant < now.tokenClock + lifespan
  · rw [if_pos hlate] at hrun
    refine ⟨fun hnow => ?_, iff_of_true hrun hlate, ?_, fun h => absurd hlate h, ?_⟩
    · rw [Dates.later?_eq hnow, ← lastInstant_eq, if_pos hlate]
      exact iff_of_true hrun rfl
    · intro err t ht
      rw [hrun] at ht
      cases ht
      exact ⟨rfl, rfl⟩
    · intro token t ht
      rw [hrun] at ht
      cases ht
  · rw [if_neg hlate] at hrun
    have hnot : ∀ err t, (grant now subject lifespan).run.run s ≠ some (.error err, t) := by
      intro err t
      rw [hrun]
      cases (s.registry.purge now.tokenClock).freshToken? now <;> nofun
    refine ⟨fun hnow => ?_, iff_of_false (hnot _ s) hlate, fun err t ht => absurd ht (hnot err t),
      fun _ hroom => ?_, ?_⟩
    · rw [Dates.later?_eq hnow, ← lastInstant_eq, if_neg hlate]
      exact iff_of_false (hnot _ s) nofun
    · obtain ⟨token, htoken⟩ := Option.isSome_iff_exists.mp (isSome_freshToken? hroom now)
      rw [hrun, htoken]
      exact ⟨token, _, rfl⟩
    · intro token t ht
      rw [hrun, Option.map_eq_some_iff] at ht
      obtain ⟨token', -, ht⟩ := ht
      cases ht
      unfold lookup
      rw [NameMap.find?_insert, if_pos rfl]

end InPlace

/-! ### Lines -/

namespace SshAuthority

open Ssh

variable {a : SshAuthority} {text : String} {subject : Subject} {now : Instant}
variable {random : Nat → UInt8}

theorem error_eq_of_certify {s : Statement} {err : AuthorityError}
    (h : a.certify s = .error err) : err = .signing := by
  unfold certify at h
  split at h
  · cases h
    rfl
  · split at h <;> cases h
    rfl

/-- Nothing that goes wrong with a key is blamed on the lifespan. -/
theorem error_eq_of_certifyAll {validAfter : Nat} {keys : List PublicKey} {err : AuthorityError}
    (h : a.certifyAll subject validAfter random keys = .error err) : err = .signing := by
  induction keys generalizing random with
  | nil => cases h
  | cons key keys ih =>
      simp only [certifyAll] at h
      split at h
      · next err' herr =>
        cases h
        exact error_eq_of_certify herr
      · split at h
        · next err' herr =>
          cases h
          exact ih herr
        · cases h

/-- A window that ends too late to be written already fails the first key. -/
theorem certifyAll_eq_signing {validAfter : Nat} {keys : List PublicKey} (hkeys : keys ≠ [])
    (hlate : UInt64.size / 2 ≤ validAfter + subject.lifespan.seconds) :
    a.certifyAll subject validAfter random keys = .error .signing := by
  obtain ⟨key, rest, rfl⟩ := List.exists_cons_of_ne_nil hkeys
  have hcertify : ∀ nonce serial,
      a.certify (a.statement subject validAfter nonce serial key) = .error .signing := by
    intro nonce serial
    unfold certify
    exact if_pos (.inr hlate)
  simp only [certifyAll, hcertify]

theorem issue_eq (hkeys : leadingKeys text ≠ []) (hnow : 0 ≤ now.nanos) :
    a.issue now random text subject =
      if subject.lifespan.toNanos < nanosPerSecond then .error .lifespanTooShort
      else if UInt64.size ≤ now.second.toNat + subject.lifespan.seconds
        then .error .lifespanOutOfRange
      else a.certifyAll subject now.second.toNat random (leadingKeys text) := by
  have hsome : (leadingKeys text).isEmpty = false := by
    rw [← Bool.not_eq_true, List.isEmpty_iff]
    exact hkeys
  unfold issue
  simp only [hsome, Bool.false_eq_true, if_false, if_neg (Int.not_lt.mpr hnow)]

/-- Which lifespans get the leading keys of a text certified, and for how long. -/
structure CertifiesFor (a : SshAuthority) (now : Instant) (random : Nat → UInt8) (text : String)
    (subject : Subject) : Prop where
  tooShort_iff : a.issue now random text subject = .error .lifespanTooShort ↔
    subject.lifespan.toNanos < nanosPerSecond
  /-- A lifespan that is not too short is refused just if the sum is too large for a word. -/
  outOfRange_iff : a.issue now random text subject = .error .lifespanOutOfRange ↔
    nanosPerSecond ≤ subject.lifespan.toNanos ∧
      (UInt64.size : Int) ≤ now.second + subject.lifespan.seconds
  /-- What a word can count cannot always be written. -/
  unwritten : nanosPerSecond ≤ subject.lifespan.toNanos →
    (UInt64.size / 2 : Nat) ≤ now.second + subject.lifespan.seconds →
      now.second + subject.lifespan.seconds < UInt64.size →
        a.issue now random text subject = .error .signing
  /-- Clocks show seconds of 63 bits.  With them, a lifespan that is too short makes no sum that is
  too large. -/
  outOfRange_iff_of_reading : now.second < (UInt64.size / 2 : Nat) →
    (a.issue now random text subject = .error .lifespanOutOfRange ↔
      (UInt64.size : Int) ≤ now.second + subject.lifespan.seconds)
  unwritten_of_reading : now.second < (UInt64.size / 2 : Nat) →
    (UInt64.size / 2 : Nat) ≤ now.second + subject.lifespan.seconds →
      now.second + subject.lifespan.seconds < UInt64.size →
        a.issue now random text subject = .error .signing
  /-- The seconds are added as words, and the lifespan is refused just if the sum wraps around. -/
  wraps_iff : now.second < (UInt64.size / 2 : Nat) →
    (a.issue now random text subject = .error .lifespanOutOfRange ↔
      wordSum? (.ofNat now.second.toNat) (.ofNat subject.lifespan.seconds) = none)
  /-- The window of a certificate is as long as the whole seconds of the lifespan, from the second
  of the clock on.  Its end is the sum of two words that does not wrap around. -/
  window : ∀ cs, a.issue now random text subject = .ok cs → ∀ c ∈ cs,
    (c.statement.validAfter : Int) = now.second ∧
      c.statement.validBefore = c.statement.validAfter + subject.lifespan.seconds ∧
      wordSum? (.ofNat c.statement.validAfter) (.ofNat subject.lifespan.seconds) =
        some (.ofNat c.statement.validBefore)
  /-- Both ends are written in full. -/
  written : ∀ cs, a.issue now random text subject = .ok cs → ∀ c ∈ cs,
    Bytes.toNat (.ofNat 8 c.statement.validAfter) = c.statement.validAfter ∧
      Bytes.toNat (.ofNat 8 c.statement.validBefore) = c.statement.validBefore

theorem toNat_second (hnow : 0 ≤ now.nanos) : (now.second.toNat : Int) = now.second :=
  Int.toNat_of_nonneg (Int.fdiv_nonneg hnow (by decide))

theorem issue_eq_lifespanTooShort_iff (hkeys : leadingKeys text ≠ []) (hnow : 0 ≤ now.nanos) :
    a.issue now random text subject = .error .lifespanTooShort ↔
      subject.lifespan.toNanos < nanosPerSecond := by
  rw [issue_eq hkeys hnow]
  split
  · next hshort => exact iff_of_true rfl hshort
  · next hlong =>
    refine iff_of_false ?_ hlong
    split
    · nofun
    · exact fun h => nomatch error_eq_of_certifyAll h

theorem issue_eq_lifespanOutOfRange_iff (hkeys : leadingKeys text ≠ []) (hnow : 0 ≤ now.nanos) :
    a.issue now random text subject = .error .lifespanOutOfRange ↔
      nanosPerSecond ≤ subject.lifespan.toNanos ∧
        (UInt64.size : Int) ≤ now.second + subject.lifespan.seconds := by
  have hcast : (UInt64.size : Int) ≤ now.second + subject.lifespan.seconds ↔
      UInt64.size ≤ now.second.toNat + subject.lifespan.seconds := by
    rw [← toNat_second hnow]
    exact_mod_cast Iff.rfl
  rw [hcast, issue_eq hkeys hnow]
  split
  · next hshort => exact iff_of_false nofun fun h => Nat.not_lt.mpr h.1 hshort
  · next hlong =>
    split
    · next hlarge => exact iff_of_true rfl ⟨Nat.not_lt.mp hlong, hlarge⟩
    · next hsmall =>
      exact iff_of_false (fun h => nomatch error_eq_of_certifyAll h) fun h => hsmall h.2

theorem issue_eq_signing (hkeys : leadingKeys text ≠ []) (hnow : 0 ≤ now.nanos)
    (hlong : nanosPerSecond ≤ subject.lifespan.toNanos)
    (hlate : (UInt64.size / 2 : Nat) ≤ now.second + subject.lifespan.seconds)
    (hsmall : now.second + subject.lifespan.seconds < UInt64.size) :
    a.issue now random text subject = .error .signing := by
  rw [← toNat_second hnow] at hlate hsmall
  rw [issue_eq hkeys hnow, if_neg (Nat.not_lt.mpr hlong), if_neg (by omega)]
  exact certifyAll_eq_signing hkeys (by omega)

theorem le_toNanos_of_reading (hclock : now.second < (UInt64.size / 2 : Nat))
    (hlate : (UInt64.size / 2 : Nat) ≤ now.second + subject.lifespan.seconds) :
    nanosPerSecond ≤ subject.lifespan.toNanos := by
  simp only [Span.toNanos, nanosPerSecond]
  omega

theorem issue_eq_lifespanOutOfRange_iff_of_reading (hkeys : leadingKeys text ≠ [])
    (hnow : 0 ≤ now.nanos) (hclock : now.second < (UInt64.size / 2 : Nat)) :
    a.issue now random text subject = .error .lifespanOutOfRange ↔
      (UInt64.size : Int) ≤ now.second + subject.lifespan.seconds := by
  rw [issue_eq_lifespanOutOfRange_iff hkeys hnow, and_iff_right_iff_imp]
  intro hlarge
  exact le_toNanos_of_reading hclock (by omega)

theorem window_of_issue {cs : List Certificate} {c : Certificate}
    (h : a.issue now random text subject = .ok cs) (hc : c ∈ cs) :
    (c.statement.validAfter : Int) = now.second ∧
      c.statement.validBefore = c.statement.validAfter + subject.lifespan.seconds ∧
      c.statement.validBefore < UInt64.size / 2 := by
  have hissued := isIssued_of_issue h c hc
  have hcertify := (certified_of_certifyAll (issue_eq_ok h).2 c hc).2
  exact ⟨hissued.validAfter, hissued.validBefore, (signed_of_certify hcertify).1⟩

theorem certifiesFor (a : SshAuthority) (now : Instant) (random : Nat → UInt8) (text : String)
    (subject : Subject) (hkeys : leadingKeys text ≠ []) (hnow : 0 ≤ now.nanos) :
    a.CertifiesFor now random text subject := by
  constructor
  case tooShort_iff => exact issue_eq_lifespanTooShort_iff hkeys hnow
  case outOfRange_iff => exact issue_eq_lifespanOutOfRange_iff hkeys hnow
  case unwritten => exact issue_eq_signing hkeys hnow
  case outOfRange_iff_of_reading => exact issue_eq_lifespanOutOfRange_iff_of_reading hkeys hnow
  case unwritten_of_reading =>
    intro hclock hlate
    exact issue_eq_signing hkeys hnow (le_toNanos_of_reading hclock hlate) hlate
  case wraps_iff =>
    intro hclock
    have hsecond := toNat_second hnow
    have hseconds := subject.lifespan.seconds_lt
    rw [issue_eq_lifespanOutOfRange_iff_of_reading hkeys hnow hclock, wordSum?_eq_none_iff,
      UInt64.toNat_ofNat', UInt64.toNat_ofNat']
    simp only [UInt64.size] at hclock hseconds ⊢
    omega
  case window =>
    intro cs h c hc
    obtain ⟨hafter, hbefore, hsmall⟩ := window_of_issue h hc
    refine ⟨hafter, hbefore, ?_⟩
    simp only [UInt64.size] at hsmall
    rw [wordSum?_eq_some_iff, UInt64.toNat_ofNat', UInt64.toNat_ofNat', UInt64.toNat_ofNat']
    omega
  case written =>
    intro cs h c hc
    obtain ⟨-, hbefore, hsmall⟩ := window_of_issue h hc
    have hlimit : UInt64.size / 2 ≤ Bytes.limit 8 := by decide
    exact ⟨Bytes.toNat_ofNat (by omega), Bytes.toNat_ofNat (by omega)⟩

end SshAuthority

/-! ### Certificates -/

namespace TlsAuthority

open X509

variable {a : TlsAuthority} {now : Instant} {serial : Nat} {request : String}
variable {key : PublicKeyInfo} {subject : Subject}

/-- The dates of certificates.  Spans are counted in 2^63 - 1 seconds at most. -/
def dates : Dates where
  first := .ofSeconds (Date.toSeconds ⟨-9999, 1, 1, 0, 0, 0⟩)
  last := .lastBefore ⟨10000, 1, 1, 0, 0, 0⟩
  longest := UInt64.size / 2 * nanosPerSecond - 1
  reaches := by decide

theorem lastInstant_eq : lastInstant = dates.last := by decide

/-- Which lifespans can be asked for with a good request, and how long the certificate lasts. -/
structure IssuesUntil (a : TlsAuthority) (now : Instant) (serial : Nat) (request : String)
    (subject : Subject) : Prop where
  /-- The end is computed with dates, and the lifespan is refused just if there is none. -/
  refused_iff : dates.first ≤ now →
    (a.issue now serial request subject = .error .lifespanOutOfRange ↔
      dates.later? now subject.lifespan = none)
  /-- There is none just if the sum is past the year 9999. -/
  late_iff : a.issue now serial request subject = .error .lifespanOutOfRange ↔
    .lastBefore ⟨10000, 1, 1, 0, 0, 0⟩ < now + subject.lifespan
  /-- The window is as long as the lifespan, in whole seconds at both ends. -/
  window : ∀ c, a.issue now serial request subject = .ok c → c.contents.notBefore = now.second ∧
    c.contents.notAfter = now.second + subject.lifespan.seconds +
      ((now.subsecond + subject.lifespan.nanos) / nanosPerSecond : Nat)

theorem issue_eq_lifespanOutOfRange_iff (hkey : requestedKey request = .ok key) :
    a.issue now serial request subject = .error .lifespanOutOfRange ↔
      lastInstant < now + subject.lifespan := by
  unfold issue issueFor prepare
  rw [hkey]
  by_cases hlate : lastInstant < now + subject.lifespan
  · simp [hlate]
  · simp only [if_neg hlate]
    refine iff_of_false ?_ hlate
    cases subject.names.mapM GeneralName.ofHost? with
    | none => nofun
    | some names =>
        simp only [certify]
        split <;> nofun

theorem issuesUntil (a : TlsAuthority) (now : Instant) (serial : Nat) (request : String)
    (subject : Subject) (hkey : requestedKey request = .ok key) :
    a.IssuesUntil now serial request subject := by
  constructor
  case refused_iff =>
    intro hnow
    rw [issue_eq_lifespanOutOfRange_iff hkey, Dates.later?_eq hnow, ← lastInstant_eq]
    by_cases hlate : lastInstant < now + subject.lifespan
    · simp [hlate]
    · simp [hlate]
  case late_iff => exact issue_eq_lifespanOutOfRange_iff hkey
  case window =>
    intro c hc
    obtain ⟨key', names, -, -, -, hcertify⟩ := issue_eq_ok_iff.mp hc
    rw [(certify_eq_ok hcertify).1]
    exact ⟨rfl, Instant.second_add now subject.lifespan⟩

end TlsAuthority

/-! ### All of them -/

/-- What becomes of lifespans, wherever they are used. -/
structure AddsLifespans : Prop where
  tokens : ∀ s now subject lifespan, InPlace.GrantsUntil s now subject lifespan
  /-- A text must have a key, and the clock be past the start of 1970. -/
  lines : ∀ (a : SshAuthority) now random text subject, SshAuthority.leadingKeys text ≠ [] →
    0 ≤ now.nanos → a.CertifiesFor now random text subject
  /-- A request must be good. -/
  requests : ∀ (a : TlsAuthority) now serial request key subject,
    TlsAuthority.requestedKey request = .ok key → a.IssuesUntil now serial request subject

/-- **Ends are exact sums of clocks and lifespans**, and a lifespan is refused just if the sum is
past the last date, or too large for a word. -/
theorem addsLifespans : AddsLifespans where
  tokens := InPlace.grantsUntil
  lines a now random text subject hkeys hnow := a.certifiesFor now random text subject hkeys hnow
  requests a now serial request _ subject hkey := a.issuesUntil now serial request subject hkey

end CredentialServer
