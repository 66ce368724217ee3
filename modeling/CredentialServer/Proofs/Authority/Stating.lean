import CredentialServer.Proofs.Authority.Issuing
import CredentialServer.Proofs.Der.Writing
import CredentialServer.Proofs.Server.Identity

/-! # What an issued certificate states

An authority takes one thing from a request, its key; whatever else a certificate states comes from
the caller, the clock, the random draw and the authority itself.  `States` says what that is, read
back from the values of the certificate, and `Agrees` that two requests can only make a difference
by their keys.  The issuer is the one thing that is not stated as it should be: `issuer_iff` says
for which authorities it is their subject.  Main statement: `states_of_issue`. -/

namespace CredentialServer
namespace X509

/-! ### Names that are carried over -/

namespace Name

variable {l : List Attribute} {n m : Name}

theorem put_of_not_mem {a : Attribute} (h : a.type ∉ l.map (·.type)) : put a l = l ++ [a] := by
  induction l with
  | nil => rfl
  | cons b l ih =>
      obtain ⟨hne, hmem⟩ := not_or.mp (mt List.mem_cons.mpr h)
      rw [put, if_neg (Ne.symm hne), ih hmem]
      rfl

/-- Attributes are kept as they are just if no type stands twice. -/
theorem keepLast_eq_self_iff : keepLast l = l ↔ (l.map (·.type)).Nodup := by
  constructor
  · intro h
    rw [← h]
    exact nodup_keepLast l
  · intro h
    have key : ∀ l acc : List Attribute, ((acc ++ l).map (·.type)).Nodup →
        l.foldl (fun l a => put a l) acc = acc ++ l := by
      intro l
      induction l with
      | nil => simp
      | cons a l ih =>
          intro acc hacc
          have hsplit : acc ++ a :: l = (acc ++ [a]) ++ l := by simp
          have hnew : a.type ∉ acc.map (·.type) := by
            rw [List.map_append, List.map_cons, List.nodup_append] at hacc
            exact fun hmem => hacc.2.2 _ hmem _ List.mem_cons_self rfl
          rw [List.foldl_cons, put_of_not_mem hnew, hsplit]
          exact ih _ (hsplit ▸ hacc)
    exact key l [] h

/-- Only names whose sets have one attribute are carried over. -/
theorem exists_of_carried? (h : carried? n = some m) :
    ∃ l : List Attribute, n = l.map ([·]) ∧ m = (keepLast l).map ([·]) := by
  obtain ⟨l, hl, rfl⟩ := Option.map_eq_some_iff.mp h
  refine ⟨l, ?_, rfl⟩
  clear h
  induction n generalizing l with
  | nil =>
      cases hl
      rfl
  | cons s n ih =>
      rw [List.mapM_cons] at hl
      obtain ⟨a, ha, hl⟩ := exists_of_bind_eq_some hl
      obtain ⟨l', hl', hl⟩ := exists_of_bind_eq_some hl
      cases hl
      split at ha
      · split at ha
        · cases ha
          rw [List.map_cons, ← ih l' hl']
        · cases ha
      · cases ha

/-- A name is carried over as it is just if no type of attribute stands twice in it. -/
theorem carried?_eq_self_iff (h : carried? n = some m) :
    m = n ↔ (n.flatten.map (·.type)).Nodup := by
  obtain ⟨l, rfl, rfl⟩ := exists_of_carried? h
  have hflatten (l : List Attribute) : (l.map ([·])).flatten = l := by
    induction l with
    | nil => rfl
    | cons a l ih => rw [List.map_cons, List.flatten_cons, ih, List.singleton_append]
  rw [hflatten, ← keepLast_eq_self_iff]
  constructor
  · intro heq
    rw [← hflatten (keepLast l), heq, hflatten]
  · intro heq
    rw [heq]

end Name

/-! ### Alternative names -/

namespace GeneralName

/-- The name of a host: an address, or else a domain. -/
def host (s : String) : GeneralName :=
  match Address.parse? s with
  | some a => .address a.octets
  | none => .domain (Bytes.ofText s)

theorem eq_host {s : String} {n : GeneralName} (h : ofHost? s = some n) : n = host s := by
  unfold ofHost? at h
  unfold host
  cases haddress : Address.parse? s with
  | some a =>
      rw [haddress] at h
      cases h
      rfl
  | none =>
      rw [haddress] at h
      simp only at h
      split at h
      · cases h
        rfl
      · cases h

theorem eq_map_host {names : List String} {l : List GeneralName}
    (h : names.mapM ofHost? = some l) : l = names.map host := by
  induction names generalizing l with
  | nil =>
      cases h
      rfl
  | cons name names ih =>
      rw [List.mapM_cons] at h
      obtain ⟨n, hn, h⟩ := exists_of_bind_eq_some h
      obtain ⟨l', hl', h⟩ := exists_of_bind_eq_some h
      cases h
      rw [eq_host hn, ih hl']
      rfl

/-- The tag and the content of the name of a host. -/
def hostValue (s : String) : UInt8 × Bytes :=
  match Address.parse? s with
  | some a => (0x87, a.octets)
  | none => (0x82, Bytes.ofText s)

theorem encode_host (s : String) :
    (host s).encode = Der.encode (hostValue s).1 (hostValue s).2 := by
  unfold host hostValue
  cases Address.parse? s <;> rfl

theorem ofElement?_hostValue (s : String) (raw : Bytes) :
    ofElement? ⟨(hostValue s).1, (hostValue s).2, raw⟩ = some (host s) := by
  unfold host hostValue ofElement?
  cases Address.parse? s with
  | some a =>
      simp only
      rw [if_pos (by decide)]
      rfl
  | none =>
      simp only
      rw [if_pos (by decide)]
      show ofText? .domain (Bytes.ofText s) = _
      rw [ofText?, Bytes.toText?_ofText, Option.map_some]

theorem tag_hostValue (s : String) : (hostValue s).1 &&& 0x1f ≠ 0x1f := by
  unfold hostValue
  cases Address.parse? s with
  | some a => exact (by decide : (0x87 : UInt8) &&& 0x1f ≠ 0x1f)
  | none => exact (by decide : (0x82 : UInt8) &&& 0x1f ≠ 0x1f)

end GeneralName

theorem alternativeNames?_encode {names : List String}
    (h : (encodeAlternativeNames (names.map GeneralName.host)).length < UInt64.size) :
    alternativeNames? (encodeAlternativeNames (names.map GeneralName.host)) =
      some (names.map GeneralName.host) := by
  have hvalues : (names.map GeneralName.host).flatMap GeneralName.encode =
      (names.map GeneralName.hostValue).flatMap fun p => Der.encode p.1 p.2 := by
    simp only [List.flatMap_map, GeneralName.encode_host]
  have htags : ∀ p ∈ names.map GeneralName.hostValue, p.1 &&& 0x1f ≠ 0x1f := by
    intro p hp
    obtain ⟨s, -, rfl⟩ := List.mem_map.mp hp
    exact GeneralName.tag_hostValue s
  rw [encodeAlternativeNames, hvalues] at h ⊢
  have hcontent := Der.length_lt_of_encode h
  have hread : Der.readTag? .any Der.sequence (Der.encode Der.sequence _ ++ []) = _ :=
    Der.readTag?_encode (by decide) hcontent []
  rw [List.append_nil] at hread
  have helements : ((names.map GeneralName.hostValue).map fun p =>
      (⟨p.1, p.2, Der.encode p.1 p.2⟩ : Der.Element)).mapM GeneralName.ofElement? =
        some (names.map GeneralName.host) := by
    clear h hvalues htags hcontent hread
    induction names with
    | nil => rfl
    | cons s names ih =>
        rw [List.map_cons, List.map_cons, List.mapM_cons, GeneralName.ofElement?_hostValue, ih]
        rfl
  rw [alternativeNames?, hread]
  simp only [Option.bind_eq_bind, Option.bind_some, Der.readAll?_encode htags hcontent, helements]

/-! ### Looking for an extension -/

theorem Extension.findUnique_of_mem {l : List Extension} {e : Extension}
    (hl : (l.map (·.oid)).Nodup) (he : e ∈ l) : findUnique e.oid l = .one e := by
  have hfilter : l.filter (fun x => x.oid = e.oid) = [e] := by
    induction l with
    | nil => cases he
    | cons x l ih =>
        rw [List.map_cons, List.nodup_cons] at hl
        rcases List.mem_cons.mp he with rfl | he
        · have hnone : l.filter (fun x => x.oid = e.oid) = [] := by
            rw [List.filter_eq_nil_iff]
            intro x hx heq
            exact hl.1 (List.mem_map.mpr ⟨x, hx, of_decide_eq_true heq⟩)
          rw [List.filter_cons_of_pos (by simp), hnone]
        · have hne : x.oid ≠ e.oid := fun heq => hl.1 (List.mem_map.mpr ⟨e, he, heq.symm⟩)
          rw [List.filter_cons_of_neg (by simpa using hne), ih hl.2 he]
  rw [findUnique, hfilter]

theorem Extension.findUnique_of_not_mem {l : List Extension} {oid : Oid}
    (h : oid ∉ l.map (·.oid)) : findUnique oid l = .missing := by
  have hfilter : l.filter (fun x => x.oid = oid) = [] := by
    rw [List.filter_eq_nil_iff]
    intro x hx heq
    exact h (List.mem_map.mpr ⟨x, hx, of_decide_eq_true heq⟩)
  rw [findUnique, hfilter]

/-! ### Statements without their keys -/

/-- A statement without the key and the identifier of the key. -/
def Certificate.Contents.withoutKey (c : Contents) : Contents :=
  { c with
    publicKey := .make (.plain ⟨[]⟩) []
    extensions := c.extensions.map (fun e =>
      if e.oid = Oid.subjectKeyIdentifier then { e with value := [] } else e) }

end X509

namespace TlsAuthority

open X509

variable {a : TlsAuthority} {now : Instant} {serial : Nat} {text text' : String}
variable {subject : Subject} {c c' : Certificate} {key cert : Bytes} {k k' : PublicKeyInfo}
variable {isHost : Bool} {names : List GeneralName}

/-! ### The extensions of an issued certificate -/

/-- The types of the extensions of a certificate, which depend on whether it has names. -/
def extensionTypes (unnamed : Bool) : List Oid :=
  [Oid.authorityKeyIdentifier] ++ (if unnamed then [] else [Oid.subjectAlternativeName]) ++
    [Oid.keyUsage, Oid.extendedKeyUsage, Oid.subjectKeyIdentifier, Oid.basicConstraints]

theorem nodup_extensionTypes (unnamed : Bool) : (extensionTypes unnamed).Nodup := by
  cases unnamed <;> decide

theorem map_oid_extensions :
    (a.extensions k isHost names).map (·.oid) = extensionTypes names.isEmpty := by
  unfold extensions extensionTypes
  cases names.isEmpty <;> rfl

theorem find_of_mem (e : Extension) (h : c.contents.extensions = a.extensions k isHost names)
    (he : e ∈ a.extensions k isHost names) : c.find e.oid = .one e := by
  rw [Certificate.find, h]
  refine Extension.findUnique_of_mem ?_ he
  rw [map_oid_extensions]
  exact nodup_extensionTypes _

theorem find_of_unnamed (h : c.contents.extensions = a.extensions k isHost names)
    (hnames : names = []) : c.find Oid.subjectAlternativeName = .missing := by
  rw [Certificate.find, h]
  refine Extension.findUnique_of_not_mem ?_
  rw [map_oid_extensions, hnames]
  decide

/-- Requests make a difference to a statement by their keys only. -/
theorem withoutKey_statement : (a.statement now serial k subject names).withoutKey =
    (a.statement now serial k' subject names).withoutKey := by
  unfold statement Certificate.Contents.withoutKey extensions
  cases names.isEmpty <;> rfl

theorem serialOf_lt (random : Nat → UInt8) : serialOf random < 128 * Bytes.limit 19 :=
  Nat.mod_lt _ (by decide)

/-! ### The name of the issuer -/

/-- The certificate from which the name of the issuer is taken. -/
def issuing? (cert : Bytes) : Option Certificate :=
  (Bytes.toText? cert).bind fun text =>
    (Pem.find? text.toList).bind fun block => Certificate.ofDer? block.content

theorem issuing?_within {before : List (List Char)} (hbefore : Pem.IsPreamble before) (der : Bytes)
    (after : List Char) (h : a.IsLoadedFrom
      (Bytes.ofText (Pem.within before (Pem.write "CERTIFICATE" der) after))) :
    issuing? (Bytes.ofText (Pem.within before (Pem.write "CERTIFICATE" der) after)) =
      some a.certificate := by
  obtain ⟨block, hscan, hblock⟩ := h.scanned
  rw [Pem.scan?_within isLabel_certificate der hbefore] at hscan
  cases hscan
  have hread := h.read
  rw [← hblock] at hread
  have hne : der ≠ [] := by
    rintro rfl
    cases hread
  rw [issuing?, Bytes.toText?_ofText, Option.bind_some,
    Pem.find?_within isLabel_certificate hne hbefore, Option.bind_some]
  exact hread

/-- Two certificates differ in nothing but the key and what is made of it. -/
structure Agrees (c c' : Certificate) : Prop where
  statement : c.contents.withoutKey = c'.contents.withoutKey
  algorithm : c.algorithm = c'.algorithm
  /-- The signature makes no difference of its own. -/
  same : c.contents.publicKey = c'.contents.publicKey → c = c'

/-- What an issued certificate states: the key and its identifier are the request's, and everything
else is the caller's, the clock's, the random draw's or the authority's. -/
structure States (cert : Bytes) (a : TlsAuthority) (now : Instant) (random : Nat → UInt8)
    (subject : Subject) (c : Certificate) : Prop where
  version : c.contents.version = 3
  signed : c.signed = c.contents.encode
  name : c.contents.subject = Name.ofCommonName subject.commonName
  notBefore : c.contents.notBefore = now.second
  notAfter : c.contents.notAfter = (now + subject.lifespan).second
  /-- The serial number is read back as one that is not negative. -/
  serial : Der.natural? c.contents.serial = some (serialOf random)
  serial_length : c.contents.serial.length ≤ 20
  /-- There are no other extensions. -/
  types : c.contents.extensions.map (·.oid) = extensionTypes subject.names.isEmpty
  noAuthority : ∃ e, c.find Oid.basicConstraints = .one e ∧
    basicConstraints? e.value = some ⟨false, none⟩
  /-- Of the usages, which are bits, only the first one is allowed: digital signatures. -/
  usages : ∃ e, c.find Oid.keyUsage = .one e ∧
    (Der.readTag? .any Der.bitString e.value).bind (fun r => Der.bits? r.1) = some [0x80, 0]
  purposes : ∃ e, c.find Oid.extendedKeyUsage = .one e ∧ usages? e.value =
    some (if subject.isHost then [Oid.clientUsage, Oid.serverUsage] else [Oid.clientUsage])
  /-- Without names there is no list of names. -/
  unnamed : subject.names = [] → c.find Oid.subjectAlternativeName = .missing
  /-- The list has one entry for each name, in their order, and is read back if it is not too long
  for any reader. -/
  named : subject.names ≠ [] → ∃ e, c.find Oid.subjectAlternativeName = .one e ∧
    e.value = encodeAlternativeNames (subject.names.map GeneralName.host) ∧
    (e.value.length < UInt64.size →
      alternativeNames? e.value = some (subject.names.map GeneralName.host))
  keyIdentified : ∃ e, c.find Oid.subjectKeyIdentifier = .one e ∧
    keyIdentifier? e.value = some (keyIdentifier c.contents.publicKey)
  /-- The issuer is the subject of the authority's certificate just if no type of attribute stands
  twice in it. -/
  issuer_iff : ∃ ca, issuing? cert = some ca ∧
    (c.contents.issuer = ca.contents.subject ↔ (ca.contents.subject.flatten.map (·.type)).Nodup)
  /-- There is only one such certificate if nothing that looks like one stands before it. -/
  alone : ∀ before der after, Pem.IsPreamble before →
    cert = Bytes.ofText (Pem.within before (Pem.write "CERTIFICATE" der) after) →
    issuing? cert = some a.certificate
  /-- Whatever is asked for in another request, the certificate for it says the same. -/
  agrees : ∀ text c', a.issue now (serialOf random) text subject = .ok c' → Agrees c c'

theorem agrees_of_certify (h : a.certify (a.statement now serial k subject names) = .ok c)
    (h' : a.certify (a.statement now serial k' subject names) = .ok c') : Agrees c c' := by
  obtain ⟨hc, halgorithm⟩ := certify_eq_ok h
  obtain ⟨hc', halgorithm'⟩ := certify_eq_ok h'
  refine ⟨?_, halgorithm.trans halgorithm'.symm, ?_⟩
  · rw [hc, hc']
    exact withoutKey_statement
  · intro heq
    rw [hc, hc'] at heq
    have heq : k = k' := heq
    rw [heq, h'] at h
    exact (Except.ok.inj h).symm

theorem signed_of_certify {contents : Certificate.Contents} (h : a.certify contents = .ok c) :
    c.signed = contents.encode := by
  unfold certify at h
  split at h
  · cases h
    rfl
  · cases h

theorem usages?_encodeUsages (isHost : Bool) : usages? (encodeUsages
    (if isHost then [Oid.clientUsage, Oid.serverUsage] else [Oid.clientUsage])) =
      some (if isHost then [Oid.clientUsage, Oid.serverUsage] else [Oid.clientUsage]) := by
  cases isHost <;> decide

theorem keyIdentifier?_encode :
    keyIdentifier? (Der.encode Der.octetString (keyIdentifier k)) = some (keyIdentifier k) := by
  have hlength : (keyIdentifier k).length ≤ 20 := by
    rw [keyIdentifier, List.length_take]
    exact Nat.min_le_left _ _
  have hread : Der.readTag? .any Der.octetString (Der.encode Der.octetString _ ++ []) = _ :=
    Der.readTag?_encode (by decide) (Nat.lt_of_le_of_lt hlength (by decide)) []
  rw [List.append_nil] at hread
  rw [keyIdentifier?, hread, Option.map_some]

theorem basicConstraints?_noAuthority : basicConstraints? noAuthority = some ⟨false, none⟩ := by
  decide

theorem bits?_signingUsage : (Der.readTag? .any Der.bitString signingUsage).bind
    (fun r => Der.bits? r.1) = some [0x80, 0] := by decide

/-- **An issued certificate takes nothing but the key from the request**, and states what the caller
wants, whatever the request asks for. -/
theorem states_of_issue (hload : load key cert = .ok a) {random : Nat → UInt8}
    (h : a.issue now (serialOf random) text subject = .ok c) :
    States cert a now random subject c := by
  have hfrom := isLoadedFrom_of_load hload
  obtain ⟨k, names, hkey, hlifespan, hnames, hcertify⟩ := issue_eq_ok_iff.mp h
  obtain ⟨hcontents, -⟩ := certify_eq_ok hcertify
  obtain rfl := GeneralName.eq_map_host hnames
  have hextensions : c.contents.extensions =
      a.extensions k subject.isHost (subject.names.map GeneralName.host) := by
    rw [hcontents, statement]
  have hpublicKey : c.contents.publicKey = k := by rw [hcontents, statement]
  have hserial : c.contents.serial = Der.naturalContent (serialOf random) := by
    rw [hcontents, statement]
  have hconstraints := find_of_mem ⟨Oid.basicConstraints, true, noAuthority⟩ hextensions
    (by simp [extensions])
  have husages := find_of_mem ⟨Oid.keyUsage, true, signingUsage⟩ hextensions
    (by simp [extensions])
  have hpurposes := find_of_mem ⟨Oid.extendedKeyUsage, false, encodeUsages
    (if subject.isHost then [Oid.clientUsage, Oid.serverUsage] else [Oid.clientUsage])⟩ hextensions
    (by simp [extensions])
  have hidentifier := find_of_mem
    ⟨Oid.subjectKeyIdentifier, false, Der.encode Der.octetString (keyIdentifier k)⟩ hextensions
    (by simp [extensions])
  obtain ⟨text', block, ca, htext, hblock, hca, hissuer⟩ := hfrom.issuer
  have hissuing : issuing? cert = some ca := by
    rw [issuing?, htext, Option.bind_some, hblock, Option.bind_some, hca]
  exact {
    version := by rw [hcontents, statement]
    signed := by rw [signed_of_certify hcertify, hcontents]
    name := by rw [hcontents, statement]
    notBefore := by rw [hcontents, statement]
    notAfter := by rw [hcontents, statement]
    serial := by rw [hserial, Der.natural?_naturalContent]
    serial_length := by
      rw [hserial]
      exact Der.length_naturalContent_le (serialOf_lt random)
    types := by
      rw [hextensions, map_oid_extensions]
      cases subject.names <;> rfl
    noAuthority := ⟨_, hconstraints, basicConstraints?_noAuthority⟩
    usages := ⟨_, husages, bits?_signingUsage⟩
    purposes := ⟨_, hpurposes, usages?_encodeUsages _⟩
    unnamed := fun hnone => find_of_unnamed hextensions (by rw [hnone, List.map_nil])
    named := by
      intro hsome
      have hnamed := find_of_mem ⟨Oid.subjectAlternativeName, false,
        encodeAlternativeNames (subject.names.map GeneralName.host)⟩ hextensions
        (by simp [extensions, hsome])
      exact ⟨_, hnamed, rfl, alternativeNames?_encode⟩
    keyIdentified := by
      rw [hpublicKey]
      exact ⟨_, hidentifier, keyIdentifier?_encode⟩
    issuer_iff := by
      refine ⟨ca, hissuing, ?_⟩
      rw [hcontents, statement]
      exact Name.carried?_eq_self_iff hissuer
    alone := by
      rintro before der after hbefore rfl
      exact issuing?_within hbefore der after hfrom
    agrees := by
      intro other c' h'
      obtain ⟨k', names', -, -, hnames', hcertify'⟩ := issue_eq_ok_iff.mp h'
      rw [hnames] at hnames'
      cases hnames'
      exact agrees_of_certify hcertify hcertify' }

theorem states_badge : States
    (Bytes.ofText (Pem.write "CERTIFICATE" (World.crewCertificate "ca" []).encode))
    World.crewAuthority World.dawn.signingClock World.dawn.random World.badgeSubject World.badge :=
  states_of_issue World.load_crewAuthority World.issue_badge

/-! ### An authority of a domain -/

/-- The name of an authority of the domain `example.com`, one attribute for each part of it. -/
def domainName : Name :=
  let component := Oid.ofNumbers [0, 9, 2342, 19200300, 100, 1, 25]
  [[⟨component, 0x16, Bytes.ofText "com"⟩], [⟨component, 0x16, Bytes.ofText "example"⟩],
    [⟨Oid.commonName, Der.utf8String, Bytes.ofText "ca"⟩]]

def domainCertificate : Certificate :=
  let contents := { (World.crewCertificate "ca" []).contents with
    issuer := domainName
    subject := domainName }
  ⟨contents, contents.encode, .withNull Oid.rsaSha256,
    (World.crewKey.sign .sha256 contents.encode).getD []⟩

/-- The authority is loaded, but goes by a shorter name: of two parts of one type the last one takes
the place of the first one. -/
theorem load_domainCertificate :
    load (Bytes.ofText (Pem.write "RSA PRIVATE KEY" World.crewKeyDer))
        (Bytes.ofText (Pem.write "CERTIFICATE" domainCertificate.encode)) =
      .ok ⟨World.crewKey, domainCertificate, domainName.tail, domainCertificate.encode,
        Bytes.ofText (Pem.write "CERTIFICATE" domainCertificate.encode)⟩ := by
  refine load_write ?_ ?_ ?_ ?_ ?_ ?_
  · decide +kernel
  · decide +kernel
  · decide +kernel
  · decide +kernel
  · decide +kernel
  · decide +kernel

/-- The issuer of its certificates is not its subject. -/
theorem misnamed_domainCertificate : ∃ a c,
    load (Bytes.ofText (Pem.write "RSA PRIVATE KEY" World.crewKeyDer))
      (Bytes.ofText (Pem.write "CERTIFICATE" domainCertificate.encode)) = .ok a ∧
    a.issue World.dawn.signingClock (serialOf World.dawn.random)
      (Pem.write "CERTIFICATE REQUEST" World.badgeRequestDer) World.badgeSubject = .ok c ∧
    c.contents.issuer ≠ a.certificate.contents.subject := by
  have ha := isLoaded_of_load load_domainCertificate
  obtain ⟨c, hc⟩ := (ha.exists_issue_iff World.requestedKey_badgeRequest World.dawn.signingClock
    (serialOf World.dawn.random) World.badgeSubject).mpr ⟨by decide, nofun⟩
  refine ⟨_, c, load_domainCertificate, hc, ?_⟩
  obtain ⟨k, names, -, -, -, hcertify⟩ := issue_eq_ok_iff.mp hc
  rw [(certify_eq_ok hcertify).1, statement]
  show domainName.tail ≠ domainName
  decide

end TlsAuthority
end CredentialServer
