import CredentialServer.Authority.Tls
import CredentialServer.Proofs.Der.Reading

/-! # Issued certificates identify their holder

An authority checks a certificate with the key that it published, and signs with its own.  When it
was loaded these were found to be the same (`isLoaded_of_load`), so its signatures are checked as
the ones of its own key (`IsLoaded.verify_eq`).  What else it looks at in a certificate, it wrote
there itself.  Main statement: `verifyClient_of_issue`. -/

namespace CredentialServer
namespace X509

/-! ### Keys of certificates -/

theorem exists_of_bind_eq_some {α β : Type} {x : Option α} {f : α → Option β} {b : β}
    (h : (x >>= f) = some b) : ∃ a, x = some a ∧ f a = some b := Option.bind_eq_some_iff.mp h

/-- A key that is an RSA key by its encoding is one by its bits. -/
theorem PublicKeyInfo.rsaNumbers?_of_rsa? {b rest : Bytes} {e : Der.Element} {k : PublicKeyInfo}
    {key : Rsa.PublicKey} (he : Der.read? .any b = some (e, rest))
    (hk : PublicKeyInfo.ofElement? .any e = some k) (hkey : k.rsa? = some key) :
    PublicKeyInfo.rsaNumbers? k.key = some key := by
  unfold ofElement? at hk
  obtain ⟨_, -, hk⟩ := exists_of_bind_eq_some hk
  obtain ⟨⟨algorithm, more⟩, halgorithm, hk⟩ := exists_of_bind_eq_some hk
  obtain ⟨_, -, hk⟩ := exists_of_bind_eq_some hk
  obtain ⟨⟨bits, _⟩, hbits, hk⟩ := exists_of_bind_eq_some hk
  obtain ⟨octets, hoctets, hk⟩ := exists_of_bind_eq_some hk
  cases hk
  unfold rsa? at hkey
  obtain ⟨content, hcontent, hkey⟩ := exists_of_bind_eq_some hkey
  obtain ⟨⟨algorithm', more'⟩, halgorithm', hkey⟩ := exists_of_bind_eq_some hkey
  obtain ⟨_, -, hkey⟩ := exists_of_bind_eq_some hkey
  obtain ⟨bits', hbits', hkey⟩ := exists_of_bind_eq_some hkey
  obtain ⟨_, -, hnumbers⟩ := exists_of_bind_eq_some hkey
  obtain ⟨e', he', -, rfl⟩ := Der.readTag?_eq_some_iff.mp (Der.readOnly?_eq_some_iff.mp hcontent)
  have heq : e' = e := by
    have := Der.read?_any he'
    rw [Der.read?_raw he] at this
    cases this
    rfl
  subst heq
  have hmore := Der.readTag?_any halgorithm'
  rw [halgorithm] at hmore
  cases hmore
  have hsame := Der.readTag?_any (Der.readOnly?_eq_some_iff.mp hbits')
  rw [hbits] at hsame
  cases hsame
  rw [← Der.tail_of_bits? hoctets] at hnumbers
  exact hnumbers

theorem exists_element_of_ofContent? {b : Bytes} {c : Certificate.Contents}
    (h : Certificate.Contents.ofContent? b = some c) : ∃ b' e rest,
      Der.read? .any b' = some (e, rest) ∧ PublicKeyInfo.ofElement? .any e = some c.publicKey := by
  unfold Certificate.Contents.ofContent? at h
  obtain ⟨version, -, h⟩ := exists_of_bind_eq_some h
  obtain ⟨serial, -, h⟩ := exists_of_bind_eq_some h
  obtain ⟨algorithm, -, h⟩ := exists_of_bind_eq_some h
  obtain ⟨_, -, h⟩ := exists_of_bind_eq_some h
  obtain ⟨issuer, -, h⟩ := exists_of_bind_eq_some h
  obtain ⟨validity, -, h⟩ := exists_of_bind_eq_some h
  obtain ⟨first, -, h⟩ := exists_of_bind_eq_some h
  obtain ⟨last, -, h⟩ := exists_of_bind_eq_some h
  obtain ⟨notBefore, -, h⟩ := exists_of_bind_eq_some h
  obtain ⟨notAfter, -, h⟩ := exists_of_bind_eq_some h
  obtain ⟨subject, -, h⟩ := exists_of_bind_eq_some h
  obtain ⟨⟨e, rest⟩, hkey, h⟩ := exists_of_bind_eq_some h
  obtain ⟨publicKey, hpublic, h⟩ := exists_of_bind_eq_some h
  obtain ⟨extensions, -, h⟩ := exists_of_bind_eq_some h
  cases h
  exact ⟨_, e, rest, hkey, hpublic⟩

theorem exists_element_of_ofDer? {b : Bytes} {c : Certificate}
    (h : Certificate.ofDer? b = some c) : ∃ b' e rest, Der.read? .any b' = some (e, rest) ∧
      PublicKeyInfo.ofElement? .any e = some c.contents.publicKey := by
  unfold Certificate.ofDer? at h
  obtain ⟨content, -, h⟩ := exists_of_bind_eq_some h
  obtain ⟨statement, -, h⟩ := exists_of_bind_eq_some h
  obtain ⟨_, -, h⟩ := exists_of_bind_eq_some h
  obtain ⟨contents, hcontents, h⟩ := exists_of_bind_eq_some h
  obtain ⟨algorithm, -, h⟩ := exists_of_bind_eq_some h
  obtain ⟨_, -, h⟩ := exists_of_bind_eq_some h
  obtain ⟨bits, -, h⟩ := exists_of_bind_eq_some h
  obtain ⟨signature, -, h⟩ := exists_of_bind_eq_some h
  cases h
  exact exists_element_of_ofContent? hcontents

end X509

namespace TlsAuthority

open X509

/-! ### Loaded authorities -/

/-- What is known of an authority that was loaded. -/
structure IsLoaded (a : TlsAuthority) : Prop where
  strong : a.key.isStrong = true
  sound : a.key.toPublic.isSound = true
  published : PublicKeyInfo.rsaNumbers? a.certificate.contents.publicKey.key = some a.key.toPublic

theorem of_check_eq_ok {ε α : Type} {p : Prop} [Decidable p] {err : ε} {k : PUnit → Except ε α}
    {a : α} (h : (if p then k ⟨⟩ else throw err >>= k) = .ok a) : p ∧ k ⟨⟩ = .ok a := by
  by_cases hp : p
  · rw [if_pos hp] at h
    exact ⟨hp, h⟩
  · rw [if_neg hp] at h
    cases h

/-- What was read and checked when an authority was loaded. -/
structure IsLoadedFrom (cert : Bytes) (a : TlsAuthority) : Prop where
  scanned : ∃ block, Pem.scan? cert = some block ∧ block.content = a.der
  read : Certificate.ofDer? a.der = some a.certificate
  published : a.certificate.contents.publicKey.rsa? = some a.key.toPublic
  sound : a.key.toPublic.isSound = true
  strong : a.key.isStrong = true
  armoured : a.armoured = cert
  /-- The name of the issuer is looked up by another reader. -/
  issuer : ∃ text block certificate, Bytes.toText? cert = some text ∧
    Pem.find? text.toList = some block ∧ Certificate.ofDer? block.content = some certificate ∧
    Name.carried? certificate.contents.subject = some a.issuer

theorem isLoadedFrom_of_load {key cert : Bytes} {a : TlsAuthority} (h : load key cert = .ok a) :
    a.IsLoadedFrom cert := by
  unfold load at h
  split at h
  case h_2 => cases h
  next key hprivate =>
  split at h
  case h_2 => cases h
  next block hblock =>
  split at h
  case h_2 => cases h
  next certificate hcertificate =>
  split at h
  case h_2 => cases h
  next published hpublished =>
  obtain ⟨hsound, h⟩ := of_check_eq_ok h
  obtain ⟨hmatch, h⟩ := of_check_eq_ok h
  obtain ⟨hstrong, h⟩ := of_check_eq_ok h
  split at h
  case h_2 => cases h
  next text htext =>
  split at h
  case h_2 => cases h
  next block' hblock' =>
  split at h
  case h_2 => cases h
  next certificate' hcertificate' =>
  split at h
  case h_2 => cases h
  next issuer hissuer =>
  obtain ⟨-, h⟩ := of_check_eq_ok h
  cases h
  rw [hmatch] at hpublished hsound
  exact ⟨⟨block, hblock, rfl⟩, hcertificate, hpublished, hsound, hstrong, rfl,
    text, block', certificate', htext, hblock', hcertificate', hissuer⟩

theorem load_eq_ok {key cert : Bytes} {a : TlsAuthority} (h : load key cert = .ok a) :
    Certificate.ofDer? a.der = some a.certificate ∧
      a.certificate.contents.publicKey.rsa? = some a.key.toPublic ∧
      a.key.toPublic.isSound = true ∧ a.key.isStrong = true ∧ a.armoured = cert :=
  have h := isLoadedFrom_of_load h
  ⟨h.read, h.published, h.sound, h.strong, h.armoured⟩

theorem isLoaded_of_load {key cert : Bytes} {a : TlsAuthority} (h : load key cert = .ok a) :
    a.IsLoaded := by
  have h := isLoadedFrom_of_load h
  obtain ⟨_, e, rest, he, hpublic⟩ := exists_element_of_ofDer? h.read
  exact ⟨h.strong, h.sound, PublicKeyInfo.rsaNumbers?_of_rsa? he hpublic h.published⟩

variable {a : TlsAuthority}

/-- Signatures are checked as those of the authority's own key. -/
theorem IsLoaded.verify_eq (ha : a.IsLoaded) (message signature : Bytes) :
    a.certificate.contents.publicKey.verify (.withNull Oid.rsaSha256) message signature =
      a.key.toPublic.verify .sha256 message signature := by
  have hstrong := ha.strong
  have hsound := ha.sound
  simp only [Rsa.PrivateKey.isStrong, decide_eq_true_eq] at hstrong
  simp only [Rsa.PublicKey.isSound, decide_eq_true_eq] at hsound
  obtain ⟨hlength, hbits, hexponent, -⟩ := hstrong
  obtain ⟨-, hmodulus, hodd, -, hlimit, -⟩ := hsound
  unfold PublicKeyInfo.verify
  rw [if_neg (by decide), if_pos (by rfl)]
  unfold PublicKeyInfo.verifyRsa
  rw [ha.published]
  simp only
  have hfits : Rsa.bitLength a.key.toPublic.modulus ≤ 8192 := Nat.le_trans hbits (by decide)
  have hlarge : 3 ≤ a.key.toPublic.exponent := Nat.le_trans (by decide) hexponent
  rw [decide_eq_true ⟨hlength, hfits, hmodulus, hlarge, hlimit, hodd⟩, Bool.true_and]

/-! ### Issued certificates -/

theorem clientUse?_of_extensions {c : Certificate} {key : PublicKeyInfo} {isHost : Bool}
    {names : List GeneralName} (h : c.contents.extensions = a.extensions key isHost names) :
    clientUse? c = some true := by
  have hfind : c.find Oid.extendedKeyUsage = .one ⟨Oid.extendedKeyUsage, false, encodeUsages
      (if isHost then [Oid.clientUsage, Oid.serverUsage] else [Oid.clientUsage])⟩ := by
    unfold Certificate.find Extension.findUnique
    rw [h]
    unfold extensions
    cases names.isEmpty <;> rfl
  unfold clientUse?
  rw [hfind]
  cases isHost <;> decide

theorem commonName?_ofCommonName (s : String) : (Name.ofCommonName s).commonName? = some s := by
  unfold Name.commonName? Name.ofCommonName
  simp [Bytes.toText?_ofText]

/-- A loaded authority signs every statement. -/
theorem IsLoaded.exists_certify (ha : a.IsLoaded) (contents : Certificate.Contents) :
    ∃ c, a.certify contents = .ok c := by
  have hstrong := ha.strong
  simp only [Rsa.PrivateKey.isStrong, decide_eq_true_eq] at hstrong
  have hlength : 256 ≤ a.key.toPublic.length := by
    have := hstrong.1
    omega
  have hroom : Digest.sha256.frame.length + Digest.sha256.length + 11 ≤ a.key.toPublic.length :=
    Nat.le_trans (by decide) hlength
  obtain ⟨signature, hsign⟩ := a.key.exists_sign hroom contents.encode
  unfold certify
  rw [hsign]
  exact ⟨_, rfl⟩

theorem exists_ofHosts_iff {names : List String} :
    (∃ l, names.mapM GeneralName.ofHost? = some l) ↔
      ∀ name ∈ names, ∃ n, GeneralName.ofHost? name = some n := by
  induction names with
  | nil => simp
  | cons name names ih =>
      rw [List.forall_mem_cons, ← ih, List.mapM_cons]
      cases GeneralName.ofHost? name with
      | none => simp
      | some n => cases names.mapM GeneralName.ofHost? <;> simp

/-- What is needed besides a request, to make a certificate for its key. -/
structure Issues (subject : Subject) (now : Instant) : Prop where
  /-- Certificates can name the instant at which this one ends. -/
  short : now + subject.lifespan ≤ lastInstant
  /-- Every name is an address or can be written in a certificate. -/
  written : ∀ name ∈ subject.names, ∃ n, GeneralName.ofHost? name = some n

theorem IsLoaded.exists_issueFor_iff (ha : a.IsLoaded) (now : Instant) (serial : Nat)
    (key : PublicKeyInfo) (subject : Subject) :
    (∃ c, a.issueFor now serial key subject = .ok c) ↔ Issues subject now := by
  unfold issueFor prepare
  constructor
  · rintro ⟨c, hc⟩
    by_cases hlate : lastInstant < now + subject.lifespan
    · rw [if_pos hlate] at hc
      cases hc
    · rw [if_neg hlate] at hc
      rw [Instant.lt_def, Int.not_lt, ← Instant.le_def] at hlate
      cases hnames : subject.names.mapM GeneralName.ofHost? with
      | none =>
          rw [hnames] at hc
          cases hc
      | some names => exact ⟨hlate, exists_ofHosts_iff.mp ⟨names, hnames⟩⟩
  · rintro ⟨hshort, hwritten⟩
    obtain ⟨names, hnames⟩ := exists_ofHosts_iff.mpr hwritten
    obtain ⟨c, hc⟩ := ha.exists_certify (a.statement now serial key subject names)
    have hearly : ¬ lastInstant < now + subject.lifespan := by
      rw [Instant.lt_def, Int.not_lt, ← Instant.le_def]
      exact hshort
    refine ⟨c, ?_⟩
    rw [if_neg hearly, hnames]
    exact hc

/-- When a certificate is made for the key of a good request. -/
theorem IsLoaded.exists_issue_iff (ha : a.IsLoaded) {request : String} {key : PublicKeyInfo}
    (hkey : requestedKey request = .ok key) (now : Instant) (serial : Nat) (subject : Subject) :
    (∃ c, a.issue now serial request subject = .ok c) ↔ Issues subject now := by
  unfold issue
  rw [hkey]
  exact ha.exists_issueFor_iff now serial key subject

theorem certify_eq_ok {contents : Certificate.Contents} {c : Certificate}
    (h : a.certify contents = .ok c) :
    c.contents = contents ∧ c.algorithm = .withNull Oid.rsaSha256 := by
  unfold certify at h
  split at h
  · cases h
    exact ⟨rfl, rfl⟩
  · cases h

/-- **A certificate that an authority issued identifies its holder while it is valid**, if it is
read as it was written and its signature passes. -/
theorem verifyClient_of_issue (ha : a.IsLoaded) {now : Instant} {serial : Nat} {request : String}
    {subject : Subject} {c : Certificate} (h : a.issue now serial request subject = .ok c)
    (hread : Certificate.ofDer? c.encode = some c)
    (hverified : a.key.toPublic.verify .sha256 c.signed c.signature = true) (t : Instant)
    (rest : List Bytes) : a.verifyClient t (c.encode :: rest) =
      if Instant.ofSeconds now.second ≤ t ∧ t ≤ Instant.ofSeconds (now + subject.lifespan).second
      then .ok subject.commonName else .error .outsideValidity := by
  obtain ⟨key, names, -, -, -, h⟩ := issue_eq_ok_iff.mp h
  obtain ⟨hcontents, halgorithm⟩ := certify_eq_ok h
  have hsigned : c.isSignedBy a.certificate.contents.publicKey = true := by
    unfold Certificate.isSignedBy
    rw [halgorithm, ha.verify_eq, hverified]
  have hextensions : c.contents.extensions = a.extensions key subject.isHost names := by
    rw [hcontents]
    rfl
  have hclients : clientUse? c = some true := clientUse?_of_extensions hextensions
  have hname : c.contents.subject.commonName? = some subject.commonName := by
    rw [hcontents]
    exact commonName?_ofCommonName _
  have hvalid : c.isValidAt t = decide (Instant.ofSeconds now.second ≤ t ∧
      t ≤ Instant.ofSeconds (now + subject.lifespan).second) := by
    unfold Certificate.isValidAt
    rw [hcontents]
    rfl
  by_cases ht : Instant.ofSeconds now.second ≤ t ∧
      t ≤ Instant.ofSeconds (now + subject.lifespan).second
  · rw [if_pos ht]
    rw [decide_eq_true ht] at hvalid
    exact verifyClient_eq_ok_iff.mpr ⟨_, _, c, rfl, hread, hsigned, hvalid, hclients, hname⟩
  · rw [if_neg ht]
    rw [decide_eq_false ht] at hvalid
    unfold verifyClient
    simp [hread, hsigned, hvalid]

end TlsAuthority
end CredentialServer
