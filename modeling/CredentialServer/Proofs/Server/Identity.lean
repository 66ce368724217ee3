import CredentialServer.Proofs.Authority.Issuing
import CredentialServer.Proofs.Server.Mediation

/-! # Certificates log their holders in

A member of a group may have a certificate made by the authority that requests are checked against,
and later show it instead of a token.  It is then taken for whom its grant names, as long as the
certificate is valid.  Main statement: `issuesIdentity_of_load`. -/

namespace CredentialServer

/-! ### Requests in armour -/

theorem TlsAuthority.isLabel_request : Pem.IsLabel "CERTIFICATE REQUEST".toList :=
  Pem.isLabel_of_all (by decide) (by decide)

theorem TlsAuthority.requestedKey_write {der : Bytes} {r : X509.Request} {key : X509.PublicKeyInfo}
    (hread : X509.Request.ofDer? der = some r) (hproved : r.isProved = true)
    (haccepted : r.accepted? = some key) :
    requestedKey (Pem.write "CERTIFICATE REQUEST" der) = .ok key := by
  have hne : der ≠ [] := by
    rintro rfl
    cases hread
  unfold requestedKey
  -- One step at a time: the armour must not be taken apart to see that its label is the right one.
  rw [Pem.scan?_write isLabel_request]
  refine (if_pos rfl).trans ?_
  rw [hread]
  refine (if_pos hproved).trans ?_
  rw [Pem.find?_write isLabel_request hne]
  simp only [hread, haccepted]
  rfl

namespace World

section
variable {files : Files} {c : Config} {w : World}

/-! ### Authorities of a loaded world -/

theorem exists_load_of_find? (hw : load files c = .ok w) {name : String} {a : Authority}
    (ha : w.authorities.find? name = some a) :
    ∃ f key cert, c.authorities.find? name = some f ∧ Authority.load f.kind key cert = .ok a := by
  have hload := (load_eq_ok_iff.mp hw).2.1
  cases hf : c.authorities.find? name with
  | none =>
      rw [NameMap.find?_mapM_of_none hload hf] at ha
      cases ha
  | some f =>
      obtain ⟨a', ha', hfind⟩ := NameMap.find?_mapM_of_some hload hf
      rw [ha] at hfind
      cases hfind
      unfold loadAuthority at ha'
      split at ha'
      · cases ha'
      · split at ha'
        · cases ha'
        · next key hkey =>
          split at ha'
          · cases ha'
          · next cert hcert =>
            split at ha'
            · next found hfound =>
              cases ha'
              exact ⟨f, key, cert, rfl, hfound⟩
            · cases ha'

theorem isLoaded_of_find? (hw : load files c = .ok w) {name : String} {a : TlsAuthority}
    (ha : w.authorities.find? name = some (.tls a)) : a.IsLoaded := by
  obtain ⟨f, key, cert, -, hload⟩ := exists_load_of_find? hw ha
  have hkind := Authority.kind_load hload
  unfold Authority.kind at hkind
  rw [← hkind] at hload
  unfold Authority.load at hload
  obtain ⟨a', ha', heq⟩ := exists_of_map_eq_ok hload
  cases heq
  exact TlsAuthority.isLoaded_of_load ha'

theorem find?_authentication (hw : load files c = .ok w) :
    w.authorities.find? c.authenticationAuthority = some (.tls w.authentication) := by
  have hfound := (load_eq_ok_iff.mp hw).2.2.1
  unfold findAuthentication at hfound
  split at hfound
  · cases hfound
  · next a ha =>
    cases hfound
    exact ha
  · cases hfound

theorem privilegeOf_of_load (hw : load files c = .ok w) {api : String} {g : Grant}
    (hg : c.grants.find? api = some g) {principal : String} {a : Account}
    (ha : w.directory.account principal = .ok a) (hmember : a.BelongsTo c.groups g.group) :
    ∃ p, w.engine.privilegeOf principal api = .ok p ∧
      g.Binds w.directory w.authorities a.metadata p := by
  obtain ⟨d, hd, he⟩ := engine_load hw
  have hdir : w.directory = d := (Engine.compile_eq_ok he).1
  rw [hdir] at ha ⊢
  exact Engine.privilegeOf_of_belongs hd he hg ha hmember

/-! ### Templates for a principal -/

theorem substitute_principal (hw : load files c = .ok w) {principal : String} {a : Account}
    (ha : w.directory.account principal = .ok a) {text : String}
    (h : substitute a.metadata "(principal)" = .ok text) : text = a.principal := by
  obtain ⟨-, config, -, hconfig⟩ := ((flattens_load hw).account_iff _ _).mp ha
  have hfind := Account.metadata_ofConfig hconfig
  have hparts : pieces '(' "(principal)".toList = [[], "principal)".toList] := by decide
  have hpart : pieces ')' "principal)".toList = ["principal".toList, []] := by decide
  have hvalue : Variables.value? a.metadata "principal".toList =
      if a.principal.isEmpty then none else some a.principal.toList := by
    unfold Variables.value?
    rw [String.ofList_toList, show "principal" = Account.principalKey from rfl, hfind]
  unfold substitute at h
  rw [hparts] at h
  simp only [List.not_mem_nil, if_false, expandParts, expandPart, hpart, hvalue] at h
  cases hempty : a.principal.isEmpty with
  | true =>
      rw [hempty] at h
      cases h
  | false =>
      rw [hempty] at h
      cases h
      simp

end

/-! ### Showing a certificate -/

/-- What a certificate proves of whoever shows it, before anything else is known of them: a name,
for a time.  Times are seconds since the start of 1970. -/
structure Identifies (w : World) (leaf : Bytes) (name : String) (notBefore notAfter : Int) :
    Prop where
  accepted : ∀ t rest, Instant.ofSeconds notBefore ≤ t → t < Instant.ofSeconds notAfter →
    w.authentication.verifyClient t (leaf :: rest) = .ok name
  refused : ∀ t rest, t < Instant.ofSeconds notBefore ∨ Instant.ofSeconds notAfter < t →
    w.authentication.verifyClient t (leaf :: rest) = .error .outsideValidity
  /-- A request that shows the certificate, and no token, is accepted just if there is an account of
  this name that is open to it. -/
  authenticated : ∀ (now : Moment) (credentials : Credentials) rest r a r',
    credentials.tokens = [] → credentials.chain = some (leaf :: rest) →
    Instant.ofSeconds notBefore ≤ now.signingClock →
    now.signingClock < Instant.ofSeconds notAfter →
    (authenticate w.directory w.authentication now r credentials = (.ok a, r') ↔
      r' = r ∧ w.directory.account name = .ok a ∧ a.disableDirectAuth = false ∧
        a.allows credentials.remote = true)

theorem authenticate_of_chain {w : World} {now : Moment} {r : Registry} {credentials : Credentials}
    {leaf : Bytes} {rest : List Bytes} (htokens : credentials.tokens = [])
    (hchain : credentials.chain = some (leaf :: rest)) {name : String}
    (hname : w.authentication.verifyClient now.signingClock (leaf :: rest) = .ok name) :
    authenticate w.directory w.authentication now r credentials =
      (openAccount w.directory credentials.remote name, r) := by
  have hmethod : Method.all.find? (Method.isAttempted credentials) = some .clientCertificate := by
    simp [Method.all, Method.isAttempted, htokens, hchain]
  unfold authenticate
  rw [hmethod]
  simp only [Method.verify, hchain, hname]

/-- A certificate that the authority of requests issued identifies its holder. -/
theorem identifies_of_issue {w : World} (ha : w.authentication.IsLoaded) {now : Instant}
    {serial : Nat} {csr : String} {subject : TlsAuthority.Subject} {certificate : X509.Certificate}
    (hissue : w.authentication.issue now serial csr subject = .ok certificate)
    (hread : X509.Certificate.ofDer? certificate.encode = some certificate)
    (hverified : w.authentication.key.toPublic.verify .sha256 certificate.signed
      certificate.signature = true) :
    w.Identifies certificate.encode subject.commonName now.second
      (now + subject.lifespan).second := by
  have hverify := TlsAuthority.verifyClient_of_issue ha hissue hread hverified
  have haccepted : ∀ t rest, Instant.ofSeconds now.second ≤ t →
      t < Instant.ofSeconds (now + subject.lifespan).second →
      w.authentication.verifyClient t (certificate.encode :: rest) = .ok subject.commonName := by
    intro t rest hfrom huntil
    rw [hverify, if_pos ⟨hfrom, Int.le_of_lt huntil⟩]
  refine ⟨haccepted, ?_, ?_⟩
  · intro t rest hout
    rw [hverify, if_neg]
    rintro ⟨hfrom, huntil⟩
    rw [Instant.le_def] at hfrom huntil
    rw [Instant.lt_def, Instant.lt_def] at hout
    omega
  · intro moment credentials rest r a r' htokens hchain hfrom huntil
    rw [authenticate_of_chain htokens hchain (haccepted _ rest hfrom huntil), Prod.mk.injEq,
      openAccount_eq_ok_iff, eq_comm (a := r), and_comm]

/-- What a certificate is that a member of the group of a grant was issued. -/
structure IssuesIdentity (w : World) (g : Grant) (api csr : String) (now : Moment) (a : Account)
    (subject : TlsAuthority.Subject) (certificate : X509.Certificate) : Prop where
  /-- It is the answer to the operation, in armour, and nothing else changes. -/
  answered : ∀ r, w.engine.invoke now ⟨a, r⟩ ⟨api, csr⟩ =
    .ok (TlsAuthority.armour certificate, ⟨a, r⟩)
  armoured : Pem.scan? (Bytes.ofText (TlsAuthority.armour certificate)) =
    some ⟨"CERTIFICATE".toList, certificate.encode⟩
  /-- It identifies its holder by the name that the grant gives to this account, from the second in
  which it was issued to the one in which its lifespan ends. -/
  identifies : w.Identifies certificate.encode subject.commonName now.signingClock.second
    (now.signingClock + subject.lifespan).second
  /-- Where the grant names the principal, this is the principal of the account. -/
  own : g.commonName = some "(principal)" → subject.commonName = a.principal

/-- **A certificate that was issued by the authority of requests logs its holder in as whom the
grant names**, for every configuration that can be loaded.  Of the certificate it is assumed that it
is read as it was written, and that its signature passes. -/
theorem issuesIdentity_of_load {files : Files} {c : Config} {w : World}
    (hw : load files c = .ok w) {api : String} {g : Grant} (hg : c.grants.find? api = some g)
    (hauthority : g.authority = some c.authenticationAuthority) {principal : String} {a : Account}
    (ha : w.directory.account principal = .ok a) (hmember : a.BelongsTo c.groups g.group)
    {name : String} {authority : TlsAuthority} {subject : TlsAuthority.Subject}
    (hbinds : g.Binds w.directory w.authorities a.metadata (.signTls name authority subject))
    {now : Moment} {csr : String} {certificate : X509.Certificate}
    (hissue : authority.issue now.signingClock (TlsAuthority.serialOf now.random) csr subject =
      .ok certificate)
    (hread : X509.Certificate.ofDer? certificate.encode = some certificate)
    (hverified : authority.key.toPublic.verify .sha256 certificate.signed
      certificate.signature = true) :
    w.IssuesIdentity g api csr now a subject certificate := by
  have hprincipal := principal_of_account hw ha
  obtain ⟨p, hp, hholds⟩ := privilegeOf_of_load hw hg ha hmember
  obtain rfl := hbinds.unique hholds
  have hown : g.commonName = some "(principal)" → subject.commonName = a.principal := by
    intro hcommonName
    cases hbinds with
    | signTls _ _ _ _ _ _ htemplate hsubstitute _ =>
        rw [htemplate] at hcommonName
        cases hcommonName
        exact substitute_principal hw ha hsubstitute
  obtain rfl : authority = w.authentication := by
    have hfound := find?_authentication hw
    cases hbinds with
    | signTls _ hname hfind _ _ _ _ _ _ =>
        rw [hauthority] at hname
        cases hname
        rw [hfound] at hfind
        cases hfind
        rfl
  refine ⟨?_, Pem.scan?_write TlsAuthority.isLabel_certificate _, ?_, hown⟩
  · intro r
    rw [← hprincipal] at hp
    refine Engine.invoke_eq_ok_iff.mpr ⟨_, hp, ?_⟩
    simp only [Privilege.invoke, Privilege.tlsAnswer, hissue]
    rfl
  · exact identifies_of_issue (isLoaded_of_find? hw (find?_authentication hw)) hissue hread
      hverified

/-! ### A badge -/

/-- An operator whose metadata claim that she is somebody else. -/
def badged : AccountConfig := { (default : AccountConfig) with
  principal := "ann", group := some "operators", metadata := NameMap.ofList [("principal", "eve")] }

def badgeGrant : Grant := { (default : Grant) with
  group := "staff", privilege := "sign-tls", authority := some "ca", lifespan := some "1h",
  commonName := some "(principal)" }

/-- The configuration of a server that makes badges. -/
def badgeConfig : Config := configOf crewGroups [badged] (NameMap.ofList [("badge", badgeGrant)])

/-- What a server that makes badges answers from. -/
def badgeOffice : World := worldOf crewAuthority badgeConfig

theorem load_badgeOffice : load crewFiles badgeConfig = .ok badgeOffice := by
  refine load_worldOf load_crewAuthority ?_
  decide +kernel

/-- A request for a badge, signed with its own key. -/
def badgeRequest : X509.Request :=
  let subject := X509.Name.ofCommonName "badge"
  let publicKey := X509.PublicKeyInfo.ofRsa crewKey.toPublic
  let signed := Der.encode Der.sequence (Der.encodeNatural 0 ++ subject.encode ++ publicKey.raw ++
    Der.encode (Der.explicitTag 0) [])
  let signature := [
    0x71fe235c08d47a23, 0xeaf96265034d9c61, 0xd34d264e73696ca4, 0xe09bf1e5c64fdd72,
    0xb17ff8689243bfa8, 0xcc1ddc0d23e132e1, 0x0baf37d011a182b0, 0xe205d28bec74aad8,
    0x6170aef94455b607, 0xcc53f6b497978bf4, 0xe290ed46f20609d7, 0x8765107716ae2c46,
    0xf654e7a79f75bc1a, 0xf9e3ebfd2d48b223, 0x7ab778286e073448, 0x5230093bd5b16166,
    0x88868352e5deb1e7, 0x808d0de846b4c8c5, 0x9a0f3b74602190d6, 0xa0d1feee371d5007,
    0x432dbbf830e60030, 0x3dc3e80cbbcba848, 0x7615eb3d3cae9c40, 0xd14722e678d622ba,
    0x444504663bfa0de9, 0x0216ecd36650c0c6, 0x94b5e418a4e26dfe, 0x43c4d72bdbc81134,
    0x39fece96a313c12d, 0x707b73147b74ea02, 0x0cb54d291ab24c0c,
    0xc39230493762b11f].flatMap (Bytes.ofNat 8)
  ⟨subject, publicKey, [], signed, .withNull Oid.rsaSha256, signature⟩

/-- The request as it is sent, before it is armoured. -/
def badgeRequestDer : Bytes := Der.encode Der.sequence (badgeRequest.signed ++
  badgeRequest.algorithm.encode ++ Der.encodeBits badgeRequest.signature)

/-- The first moment of 1970. -/
def dawn : Moment := ⟨⟨0⟩, ⟨0⟩, fun _ => 7⟩

def badgeSubject : TlsAuthority.Subject :=
  ⟨false, (Span.ofParts? 3600 0).getD .zero, "ann", []⟩

def crewIdentifier : Bytes :=
  [144, 5, 255, 70, 95, 23, 235, 240, 41, 115, 227, 241, 17, 37, 97, 137, 80, 110, 184, 151]

def badge : X509.Certificate :=
  let contents : X509.Certificate.Contents := {
    version := 3
    serial := List.replicate 20 7
    algorithm := .withNull Oid.rsaSha256
    issuer := X509.Name.ofCommonName "ca"
    notBefore := 0
    notAfter := 3600
    subject := X509.Name.ofCommonName "ann"
    publicKey := X509.PublicKeyInfo.ofRsa crewKey.toPublic
    extensions := [
      ⟨Oid.authorityKeyIdentifier, false,
        Der.encode Der.sequence (Der.encode (Der.implicitTag 0) crewIdentifier)⟩,
      ⟨Oid.keyUsage, true, TlsAuthority.signingUsage⟩,
      ⟨Oid.extendedKeyUsage, false, X509.encodeUsages [Oid.clientUsage]⟩,
      ⟨Oid.subjectKeyIdentifier, false, Der.encode Der.octetString crewIdentifier⟩,
      ⟨Oid.basicConstraints, true, TlsAuthority.noAuthority⟩] }
  let signature := [
    0x83cf99d8c9b42c60, 0xdf99d72dad7e0fed, 0x7c6a5a09b955182c, 0x2aab919dbc844f5b,
    0xddf22a94b572a574, 0xf907ca9577872302, 0xc4e7b43d740d4a0c, 0x609496027f72f88a,
    0x47fdaaf45d47a1ec, 0x271ac1e6820b6403, 0xba156bd3fc66b87f, 0xe886aa3ee0ced37c,
    0x00ff2adcc07d2b42, 0xb495a00ef0405b26, 0xeb929533385d3701, 0xe1d0e0a2acfc8da0,
    0x9b5c6a75ca073e72, 0xbaf08a93b098686b, 0x5cfe98e13270760a, 0x6d1271fdbd66303f,
    0x6798f835da039562, 0xd795cd7f3f6a3038, 0xd95e62f6951475c4, 0x0ae7397b0171d704,
    0xa6e36c6012625848, 0xdb8205bbb1e2eb42, 0xbb3c81c47ad6e369, 0x2d1203a448dfabbe,
    0x49e502357bd84d6f, 0xd600cf8f39c6ded5, 0xddfae5e676d5a688,
    0x800b505c8ef670b2].flatMap (Bytes.ofNat 8)
  ⟨contents, contents.encode, .withNull Oid.rsaSha256, signature⟩

theorem requestedKey_badgeRequest :
    TlsAuthority.requestedKey (Pem.write "CERTIFICATE REQUEST" badgeRequestDer) =
      .ok badgeRequest.publicKey := by
  have hproved : badgeRequest.isProved = true := by decide +kernel
  have haccepted : badgeRequest.accepted? = some badgeRequest.publicKey := by
    unfold X509.Request.accepted?
    rw [if_pos ⟨hproved, by decide +kernel, rfl⟩]
    decide +kernel
  have hread : X509.Request.ofDer? badgeRequestDer = some badgeRequest := by decide +kernel
  exact TlsAuthority.requestedKey_write hread hproved haccepted

theorem statement_badge : crewAuthority.statement dawn.signingClock
    (TlsAuthority.serialOf dawn.random) badgeRequest.publicKey badgeSubject [] =
      badge.contents := by
  have hidentifier : TlsAuthority.keyIdentifier (X509.PublicKeyInfo.ofRsa crewKey.toPublic) =
      crewIdentifier := by decide +kernel
  have hauthority : crewAuthority.identifier =
      TlsAuthority.keyIdentifier (X509.PublicKeyInfo.ofRsa crewKey.toPublic) := by
    unfold TlsAuthority.identifier
    rw [show crewAuthority.certificate.contents.extensions = [] from rfl,
      show crewAuthority.key = crewKey from rfl, List.findSome?_nil, Option.getD_none]
  have hrequest : badgeRequest.publicKey = X509.PublicKeyInfo.ofRsa crewKey.toPublic := rfl
  unfold TlsAuthority.statement TlsAuthority.extensions
  rw [hauthority, hrequest, hidentifier]
  decide +kernel

/-- The digest of what the badge states, which its signature is made and checked with. -/
theorem sha256_badge : Digest.run .sha256 badge.signed =
    [38, 230, 22, 100, 230, 73, 197, 75, 207, 200, 171, 131, 199, 17, 126, 161, 111, 155, 52, 97,
      211, 208, 72, 193, 112, 76, 170, 101, 131, 22, 187, 163] := by decide +kernel

theorem sign_badge : crewKey.sign .sha256 badge.signed = some badge.signature := by
  unfold Rsa.PrivateKey.sign Rsa.frame?
  rw [sha256_badge]
  decide +kernel

theorem verify_badge :
    crewKey.toPublic.verify .sha256 badge.signed badge.signature = true := by
  unfold Rsa.PublicKey.verify Rsa.frame?
  rw [sha256_badge]
  decide +kernel

theorem issue_badge : crewAuthority.issue dawn.signingClock (TlsAuthority.serialOf dawn.random)
    (Pem.write "CERTIFICATE REQUEST" badgeRequestDer) badgeSubject = .ok badge := by
  refine TlsAuthority.issue_eq_ok_iff.mpr ⟨badgeRequest.publicKey, [], requestedKey_badgeRequest,
    by decide, rfl, ?_⟩
  rw [statement_badge]
  unfold TlsAuthority.certify
  rw [show badge.contents.encode = badge.signed from rfl,
    show crewAuthority.key = crewKey from rfl, sign_badge]
  rfl

/-- An operator of the crew as an account. -/
def crewOperator : Account where
  principal := "ann"
  group := some "operators"
  disableDirectAuth := false
  limit := none
  metadata := NameMap.ofList [("principal", "ann")]

theorem issuesIdentity_of_badge : badgeGrant.commonName = some "(principal)" ∧
    badgeOffice.IssuesIdentity badgeGrant "badge"
      (Pem.write "CERTIFICATE REQUEST" badgeRequestDer) dawn crewOperator badgeSubject badge := by
  have haccount : badgeOffice.directory.account "ann" = .ok crewOperator := by
    refine ((flattens_load load_badgeOffice).account_iff _ _).mpr ⟨rfl, badged, ?_, ?_⟩
    · exact List.mem_cons_self
    · decide +kernel
  have hparent : Groups.parent? crewGroups "operators" = some "staff" := by decide +kernel
  have hmember : crewOperator.BelongsTo badgeConfig.groups badgeGrant.group :=
    ⟨"operators", rfl, .step hparent (.refl _)⟩
  have hbinds : badgeGrant.Binds badgeOffice.directory badgeOffice.authorities
      crewOperator.metadata (.signTls "ca" crewAuthority badgeSubject) := by
    have hlifespan : badgeGrant.lifespan = some "1h" := rfl
    have htemplate : badgeGrant.commonName = some "(principal)" := rfl
    refine .signTls rfl rfl rfl hlifespan ?_ ?_ htemplate ?_ rfl
    · decide +kernel
    · decide
    · decide +kernel
  refine ⟨rfl, issuesIdentity_of_load load_badgeOffice ?_ rfl haccount hmember hbinds issue_badge
    ?_ ?_⟩
  · rfl
  · show X509.Certificate.ofDer? badge.encode = some badge
    decide +kernel
  · exact verify_badge

end World
end CredentialServer
