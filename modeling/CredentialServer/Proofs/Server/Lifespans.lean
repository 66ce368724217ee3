import CredentialServer.Proofs.Server.Checking
import CredentialServer.Proofs.Server.Mediation
import CredentialServer.Proofs.Time.Zero

/-! # Lifespans of servers and of grants

A lifespan is configured in two places, for the certificate of a server and for the credentials of a
grant.  Both read it in the same way, and only grants ask that it has a length.  The texts on which
they part are those of zeros (`Lifespan.DenotesNothing`), in whatever units: no grant takes them,
and a server makes itself a certificate that ends as it begins.  Main statement:
`Listener.readsLifespans`. -/

namespace CredentialServer

theorem Span.toNanos_eq_zero_iff {span : Span} : span.toNanos = 0 ↔ span = .zero :=
  ⟨fun h => Span.ext_toNanos h, fun h => h ▸ rfl⟩

/-- A text is a lifespan, and all of its digits are zeros. -/
def Lifespan.DenotesNothing (value : String) : Prop :=
  (∃ span, parse value = .ok span) ∧ ∀ c ∈ value.toList, IsZeroDigit c

theorem Lifespan.parse_eq_zero_iff {value : String} :
    parse value = .ok .zero ↔ DenotesNothing value := by
  constructor
  · intro h
    exact ⟨⟨_, h⟩, (toNanos_parse_eq_zero_iff h).mp rfl⟩
  · rintro ⟨⟨span, h⟩, hzeros⟩
    rw [h, Span.toNanos_eq_zero_iff.mp ((toNanos_parse_eq_zero_iff h).mpr hzeros)]

theorem positiveLifespan_eq_invalid_iff {value : String} {reason : Lifespan.ParseError} :
    positiveLifespan value = .error (.invalidLifespan value reason) ↔
      Lifespan.parse value = .error reason := by
  unfold positiveLifespan
  cases Lifespan.parse value with
  | error e => simp
  | ok span => cases hspan : span.isZero <;> simp [hspan]

/-- Grants refuse the texts of zeros, and these only, for having no length. -/
theorem positiveLifespan_eq_nonPositive_iff {value : String} :
    positiveLifespan value = .error (.nonPositiveLifespan value) ↔
      Lifespan.DenotesNothing value := by
  rw [← Lifespan.parse_eq_zero_iff]
  unfold positiveLifespan
  cases Lifespan.parse value with
  | error e => simp
  | ok span =>
      have hzero := span.isZero_iff.trans Span.toNanos_eq_zero_iff
      cases hspan : span.isZero with
      | true =>
          obtain rfl := hzero.mp hspan
          simp [hspan]
      | false =>
          have hne : span ≠ .zero := fun h => by simp [hzero.mpr h] at hspan
          simp [hspan, hne]

namespace Listener

/-- What comes of an identity whose certificate is to last for a span. -/
def certifyFor (issuer : TlsAuthority) (now : Moment) (i : ServerIdentity) (span : Span) :
    Except ListenerError X509.Certificate :=
  (issuer.issueFor now.signingClock (TlsAuthority.serialOf now.random)
    (publicKeyOf (secretOf now)) ⟨true, span, commonName, i.names⟩).mapError .issue

section
variable {issuer : TlsAuthority} {now : Moment} {i : ServerIdentity} {c : X509.Certificate}
variable {span : Span}

theorem certify_eq (issuer : TlsAuthority) (now : Moment) (i : ServerIdentity) :
    certify issuer now i = match Lifespan.parse i.lifespan with
      | .error reason => .error (.lifespan i.lifespan reason)
      | .ok span => certifyFor issuer now i span := by
  unfold certify certifyFor
  cases Lifespan.parse i.lifespan with
  | error reason => rfl
  | ok span =>
      simp only
      cases issuer.issueFor now.signingClock (TlsAuthority.serialOf now.random)
        (publicKeyOf (secretOf now)) ⟨true, span, commonName, i.names⟩ <;> rfl

/-- What goes wrong behind the lifespan is not blamed on it. -/
theorem certifyFor_ne_lifespan (value : String) (reason : Lifespan.ParseError) :
    certifyFor issuer now i span ≠ .error (.lifespan value reason) := by
  unfold certifyFor
  cases issuer.issueFor now.signingClock (TlsAuthority.serialOf now.random)
    (publicKeyOf (secretOf now)) ⟨true, span, commonName, i.names⟩ <;> nofun

theorem certify_eq_lifespan_iff {value : String} {reason : Lifespan.ParseError} :
    certify issuer now i = .error (.lifespan value reason) ↔
      value = i.lifespan ∧ Lifespan.parse i.lifespan = .error reason := by
  rw [certify_eq]
  cases Lifespan.parse i.lifespan with
  | error e => simp [eq_comm]
  | ok span => simp [certifyFor_ne_lifespan]

/-- A certificate begins with the second in which it is made, and ends with the one in which its
lifespan does. -/
theorem window_of_certifyFor (h : certifyFor issuer now i span = .ok c) :
    c.contents.notBefore = now.signingClock.second ∧
      c.contents.notAfter = (now.signingClock + span).second := by
  have hissue := eq_ok_of_mapError_eq_ok h
  unfold TlsAuthority.issueFor TlsAuthority.prepare at hissue
  split at hissue
  · cases hissue
  · next contents hcontents =>
    obtain ⟨hc, -⟩ := TlsAuthority.certify_eq_ok hissue
    rw [hc]
    split at hcontents
    · cases hcontents
    · split at hcontents <;> cases hcontents
      exact ⟨rfl, rfl⟩

theorem second_add_zero (t : Instant) : (t + Span.zero).second = t.second :=
  congrArg Instant.second (congrArg Instant.mk (Int.add_zero t.nanos))

end

/-- How a server reads the lifespan of its identity, beside how grants read theirs. -/
structure ReadsLifespans (issuer : TlsAuthority) (now : Moment) (i : ServerIdentity) : Prop where
  /-- What is no lifespan to a server is none to grants, for the same reason, and the other way
  round. -/
  refused_iff : ∀ reason, certify issuer now i = .error (.lifespan i.lifespan reason) ↔
    positiveLifespan i.lifespan = .error (.invalidLifespan i.lifespan reason)
  /-- What is a lifespan to grants is one to a server, of the same length. -/
  accepted : ∀ span, positiveLifespan i.lifespan = .ok span →
    certify issuer now i = certifyFor issuer now i span
  /-- They part where a server takes the text for a lifespan and grants do not: on zeros. -/
  parts_iff : ((∀ value reason, certify issuer now i ≠ .error (.lifespan value reason)) ∧
      ¬ ∃ span, positiveLifespan i.lifespan = .ok span) ↔ Lifespan.DenotesNothing i.lifespan
  /-- Grants say so, and a server takes it for the lifespan zero. -/
  nothing : Lifespan.DenotesNothing i.lifespan →
    positiveLifespan i.lifespan = .error (.nonPositiveLifespan i.lifespan) ∧
      certify issuer now i = certifyFor issuer now i .zero
  /-- Such a certificate ends as it begins. -/
  empty : Lifespan.DenotesNothing i.lifespan → ∀ c, certify issuer now i = .ok c →
    c.contents.notBefore = now.signingClock.second ∧ c.contents.notAfter = c.contents.notBefore
  /-- There is one unless something else is wrong. -/
  exists_empty : issuer.IsLoaded → Lifespan.DenotesNothing i.lifespan →
    ((∃ c, certify issuer now i = .ok c) ↔
      TlsAuthority.Issues ⟨true, .zero, commonName, i.names⟩ now.signingClock)

/-- **A server and grants read lifespans alike, but for those of zeros**, which only a server
takes. -/
theorem readsLifespans (issuer : TlsAuthority) (now : Moment) (i : ServerIdentity) :
    ReadsLifespans issuer now i := by
  have hnothing : Lifespan.DenotesNothing i.lifespan →
      certify issuer now i = certifyFor issuer now i .zero := by
    intro hzeros
    rw [certify_eq, Lifespan.parse_eq_zero_iff.mpr hzeros]
  constructor
  case refused_iff =>
    intro reason
    rw [certify_eq_lifespan_iff, positiveLifespan_eq_invalid_iff]
    exact and_iff_right rfl
  case accepted =>
    intro span hspan
    rw [certify_eq, (positiveLifespan_eq_ok_iff.mp hspan).1]
  case parts_iff =>
    simp only [ne_eq, certify_eq_lifespan_iff, positiveLifespan_eq_ok_iff,
      ← Lifespan.parse_eq_zero_iff]
    cases hparse : Lifespan.parse i.lifespan with
    | error reason => simp
    | ok span => simp [← Span.toNanos_eq_zero_iff]
  case nothing =>
    intro hzeros
    exact ⟨positiveLifespan_eq_nonPositive_iff.mpr hzeros, hnothing hzeros⟩
  case empty =>
    intro hzeros c hc
    rw [hnothing hzeros] at hc
    obtain ⟨hbefore, hafter⟩ := window_of_certifyFor hc
    rw [hafter, hbefore, second_add_zero]
    exact ⟨rfl, rfl⟩
  case exists_empty =>
    intro hissuer hzeros
    rw [exists_certify_iff hissuer, Lifespan.parse_eq_zero_iff.mpr hzeros]
    simp

end Listener

/-! ### An identity of no length -/

namespace World

/-- The identity of a server whose certificate is to last for no time. -/
def idleIdentity : ServerIdentity := ⟨"ca", [], "0s"⟩

theorem parse_idle : Lifespan.parse idleIdentity.lifespan = .ok .zero := by decide

theorem holds_idle :
    idleIdentity.Holds (authoritiesOf crewAuthority) "ca" crewMoment.signingClock where
  issuer := ⟨crewAuthority, rfl⟩
  anchor := ⟨crewAuthority, rfl, X509.Certificate.isAnchor_of_extensions_eq_nil rfl rfl rfl⟩
  issues := ⟨.zero, parse_idle, by decide, nofun⟩

/-- A server gets ready with a lifespan that no grant takes, and shows a certificate that ends as it
begins. -/
theorem idle_established : positiveLifespan "0s" = .error (.nonPositiveLifespan "0s") ∧
    ∃ l, Listener.establish (authoritiesOf crewAuthority) "ca" crewMoment idleIdentity = .ok l ∧
      l.certificate.contents.notAfter = l.certificate.contents.notBefore := by
  have hzeros : Lifespan.DenotesNothing "0s" := Lifespan.parse_eq_zero_iff.mp parse_idle
  refine ⟨positiveLifespan_eq_nonPositive_iff.mpr hzeros, ?_⟩
  have hloaded : ∀ name a, (authoritiesOf crewAuthority).find? name = some (.tls a) →
      a.IsLoaded := fun name a ha => isLoaded_of_find? load_crew ha
  obtain ⟨l, hl⟩ := (Listener.exists_establish_iff hloaded "ca" crewMoment idleIdentity).mpr
    holds_idle
  obtain ⟨issuer, -, -, -, hcertify, -⟩ := Listener.establish_eq_ok hl
  rw [Listener.certify_eq, parse_idle] at hcertify
  obtain ⟨hbefore, hafter⟩ := Listener.window_of_certifyFor hcertify
  refine ⟨l, hl, ?_⟩
  rw [hafter, hbefore, Listener.second_add_zero]

end World
end CredentialServer
