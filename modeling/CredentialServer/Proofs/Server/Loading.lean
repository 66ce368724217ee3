import CredentialServer.Proofs.Text.Armour
import CredentialServer.Server.World

/-! # What can be loaded

A world is loaded in four steps: the static files are looked for, the authorities are loaded, the
one that authenticates requests is picked, and the engine is compiled.  Main statements:
`load_eq_ok_iff` takes the four apart, `TlsAuthority.load_write` says that a key and its certificate
are loaded from their armour, and `load_configOf` that a server with one authority starts whenever
its grants can be compiled. -/

namespace CredentialServer

/-! ### An authority from armour -/

namespace TlsAuthority

theorem isLabel_certificate : Pem.IsLabel "CERTIFICATE".toList :=
  Pem.isLabel_of_all (by decide) (by decide)

theorem isLabel_rsaKey : Pem.IsLabel "RSA PRIVATE KEY".toList :=
  Pem.isLabel_of_all (by decide) (by decide)

theorem rsa?_write {der : Bytes} {key : Rsa.PrivateKey} (h : KeyFile.rsaOfDer? der = some key) :
    KeyFile.rsa? (Pem.write "RSA PRIVATE KEY" der) = some key := by
  have hne : der ≠ [] := by
    rintro rfl
    cases h
  unfold KeyFile.rsa?
  rw [Pem.strict?_write isLabel_rsaKey hne]
  exact h

theorem load_write {keyDer certDer : Bytes} {key : Rsa.PrivateKey} {certificate : X509.Certificate}
    {issuer : X509.Name} (hkey : KeyFile.rsaOfDer? keyDer = some key)
    (hcertificate : X509.Certificate.ofDer? certDer = some certificate)
    (hpublic : certificate.contents.publicKey.rsa? = some key.toPublic)
    (hstrong : key.isStrong = true)
    (hissuer : X509.Name.carried? certificate.contents.subject = some issuer)
    (hcarried : isCarried certificate = true) :
    load (Bytes.ofText (Pem.write "RSA PRIVATE KEY" keyDer))
        (Bytes.ofText (Pem.write "CERTIFICATE" certDer)) =
      .ok ⟨key, certificate, issuer, certDer, Bytes.ofText (Pem.write "CERTIFICATE" certDer)⟩ := by
  have hne : certDer ≠ [] := by
    rintro rfl
    cases hcertificate
  have hsound : key.toPublic.isSound = true :=
    (Rsa.PrivateKey.isSound_iff key).mp (KeyFile.isSound_of_rsaOfDer hkey) |>.1
  unfold load
  simp only [Bytes.toText?_ofText, Option.bind_some, rsa?_write hkey,
    Pem.scan?_write isLabel_certificate, hcertificate, hpublic, hsound, hstrong,
    Pem.find?_write isLabel_certificate hne, hissuer, hcarried]
  rfl

end TlsAuthority

/-! ### Files of the working directory -/

theorem joinPath_empty (name : String) : joinPath "" name = name := by simp [joinPath]

namespace World

/-! ### The steps of loading -/

theorem load_eq_ok_iff {files : Files} {c : Config} {w : World} : load files c = .ok w ↔
    findStaticFiles files c.staticDir ∅ c.staticFiles = .ok w.staticFiles ∧
    c.authorities.mapM (loadAuthority files c.authorityDir) = .ok w.authorities ∧
    findAuthentication w.authorities c.authenticationAuthority = .ok w.authentication ∧
    loadEngine w.authorities c = .ok w.engine := by
  simp only [load, bind, Except.bind]
  cases findStaticFiles files c.staticDir ∅ c.staticFiles with
  | error err => simp
  | ok staticFiles =>
      cases c.authorities.mapM (loadAuthority files c.authorityDir) with
      | error err => simp
      | ok authorities =>
          simp only [Except.ok.injEq]
          cases hfound : findAuthentication authorities c.authenticationAuthority with
          | error err =>
              simp only [reduceCtorEq, false_iff]
              rintro ⟨-, rfl, h, -⟩
              rw [hfound] at h
              cases h
          | ok authentication =>
              cases hengine : loadEngine authorities c with
              | error err =>
                  simp only [reduceCtorEq, false_iff]
                  rintro ⟨-, rfl, -, h⟩
                  rw [hengine] at h
                  cases h
              | ok engine =>
                  constructor
                  · rintro h
                    cases h
                    exact ⟨rfl, rfl, hfound, hengine⟩
                  · rintro ⟨rfl, rfl, h, h'⟩
                    rw [hfound] at h
                    rw [hengine] at h'
                    cases h
                    cases h'
                    rfl

/-! ### A server with one authority -/

section
variable {key cert : Bytes} {a : TlsAuthority} {e : Engine}
variable {groups : NameMap GroupConfig} {accounts : List AccountConfig} {grants : NameMap Grant}

/-- The configuration of a server with one authority, whose files are in the working directory. -/
def configOf (groups : NameMap GroupConfig) (accounts : List AccountConfig)
    (grants : NameMap Grant) : Config :=
  { Config.default with
    authorityDir := ""
    authenticationAuthority := "ca"
    authorities := NameMap.empty.insert "ca" ⟨.tls, "ca.key", "ca.pem"⟩
    groups := groups
    accounts := accounts
    grants := grants }

def filesOf (key cert : Bytes) : Files :=
  ⟨(NameMap.empty.insert "ca.key" (.file key)).insert "ca.pem" (.file cert)⟩

def authoritiesOf (a : TlsAuthority) : Authorities := NameMap.empty.insert "ca" (.tls a)

theorem loadAuthority_of_read {files : Files} (hkey : files.read? "ca.key" = some key)
    (hcert : files.read? "ca.pem" = some cert) (h : TlsAuthority.load key cert = .ok a) :
    loadAuthority files "" "ca" ⟨.tls, "ca.key", "ca.pem"⟩ = .ok (.tls a) := by
  unfold loadAuthority
  simp only [joinPath_empty, hkey, hcert, Authority.load, h]
  rfl

/-- A server with one authority starts if its grants can be compiled, wherever it is to listen. -/
theorem load_of_read {files : Files} (hkey : files.read? "ca.key" = some key)
    (hcert : files.read? "ca.pem" = some cert) (ha : TlsAuthority.load key cert = .ok a)
    (he : loadEngine (authoritiesOf a) (configOf groups accounts grants) = .ok e)
    (address : String) :
    load files { configOf groups accounts grants with listenAddress := address } =
      .ok ⟨e, authoritiesOf a, a, ∅⟩ := by
  refine load_eq_ok_iff.mpr ⟨rfl, ?_, ?_, he⟩
  · exact NameMap.mapM_singleton (loadAuthority_of_read hkey hcert ha)
  · rfl

theorem load_configOf (ha : TlsAuthority.load key cert = .ok a)
    (he : loadEngine (authoritiesOf a) (configOf groups accounts grants) = .ok e) :
    load (filesOf key cert) (configOf groups accounts grants) =
      .ok ⟨e, authoritiesOf a, a, ∅⟩ := by
  have hkey : (filesOf key cert).read? "ca.key" = some key := by
    refine Files.read?_of_isName (by decide) ?_
    simp [filesOf, NameMap.find?_insert]
  have hcert : (filesOf key cert).read? "ca.pem" = some cert := by
    refine Files.read?_of_isName (by decide) ?_
    simp [filesOf, NameMap.find?_insert]
  exact load_of_read hkey hcert ha he Config.default.listenAddress

/-- What a server with one authority answers from, if its grants can be compiled. -/
def worldOf (a : TlsAuthority) (c : Config) : World where
  engine := (loadEngine (authoritiesOf a) c).toOption.getD (.denyAll (.ofLists [] []))
  authorities := authoritiesOf a
  authentication := a
  staticFiles := ∅

theorem load_worldOf (ha : TlsAuthority.load key cert = .ok a)
    (h : (loadEngine (authoritiesOf a) (configOf groups accounts grants)).toOption.isSome = true) :
    load (filesOf key cert) (configOf groups accounts grants) =
      .ok (worldOf a (configOf groups accounts grants)) := by
  refine load_configOf ha ?_
  cases he : loadEngine (authoritiesOf a) (configOf groups accounts grants) with
  | error err =>
      rw [he] at h
      cases h
  | ok e => rfl

end

/-! ### A crew -/

/-- The two largest primes of 1024 bits, and an exponent that is inverse to 65537. -/
def crewKey : Rsa.PrivateKey :=
  let p := Nat.pow 2 1024 - 105
  let q := Nat.pow 2 1024 - 179
  ⟨p * q, 65537, (54058 * ((p - 1) * (q - 1)) + 1) / 65537, p, q⟩

/-- The key as it is kept; what follows from its numbers is not looked at. -/
def crewKeyDer : Bytes :=
  Der.encode Der.sequence ([0, crewKey.modulus, crewKey.exponent, crewKey.secret, crewKey.prime₁,
    crewKey.prime₂, crewKey.secret % (crewKey.prime₁ - 1), crewKey.secret % (crewKey.prime₂ - 1),
    0].flatMap Der.encodeNatural)

theorem rsaOfDer?_crewKey : KeyFile.rsaOfDer? crewKeyDer = some crewKey := by decide +kernel

def crewCertificate (commonName : String) (extensions : List X509.Extension) :
    X509.Certificate :=
  let contents : X509.Certificate.Contents := {
    version := 3
    serial := [1]
    algorithm := .withNull Oid.rsaSha256
    issuer := X509.Name.ofCommonName "ca"
    notBefore := 0
    notAfter := 4102444800
    subject := X509.Name.ofCommonName commonName
    publicKey := X509.PublicKeyInfo.ofRsa crewKey.toPublic
    extensions := extensions }
  ⟨contents, contents.encode, .withNull Oid.rsaSha256,
    (crewKey.sign .sha256 contents.encode).getD []⟩

def crewAuthority : TlsAuthority where
  key := crewKey
  certificate := crewCertificate "ca" []
  issuer := X509.Name.ofCommonName "ca"
  der := (crewCertificate "ca" []).encode
  armoured := Bytes.ofText (Pem.write "CERTIFICATE" (crewCertificate "ca" []).encode)

theorem load_crewAuthority :
    TlsAuthority.load (Bytes.ofText (Pem.write "RSA PRIVATE KEY" crewKeyDer))
        (Bytes.ofText (Pem.write "CERTIFICATE" (crewCertificate "ca" []).encode)) =
      .ok crewAuthority := by
  refine TlsAuthority.load_write rsaOfDer?_crewKey ?_ ?_ ?_ ?_ ?_
  · show X509.Certificate.ofDer? (crewCertificate "ca" []).encode = some (crewCertificate "ca" [])
    decide +kernel
  · decide +kernel
  · decide +kernel
  · decide +kernel
  · decide +kernel

/-- The operators are part of the staff, and robots are not. -/
def crewGroups : NameMap GroupConfig :=
  NameMap.ofList [("operators", ⟨some "staff"⟩), ("robots", ⟨none⟩), ("staff", ⟨none⟩)]

/-- An operator, one of the staff, and a robot that cannot log in. -/
def crewAccounts : List AccountConfig := [
  { (default : AccountConfig) with principal := "ann", group := some "operators" },
  { (default : AccountConfig) with principal := "bob", group := some "staff" },
  { (default : AccountConfig) with
    principal := "eve", group := some "robots", disableDirectAuth := true }]

/-- Operators invite staff and act as staff, staff act as robots, and robots are greeted. -/
def crewGrants : NameMap Grant := NameMap.ofList [
  ("as-robot", { (default : Grant) with
    group := "staff", privilege := "impersonate", scope := some "robots" }),
  ("as-staff", { (default : Grant) with
    group := "operators", privilege := "impersonate", scope := some "staff" }),
  ("greet", { (default : Grant) with
    group := "robots", privilege := "construct-configuration", contents := some "(principal)" }),
  ("invite", { (default : Grant) with
    group := "operators", privilege := "bootstrap-account", scope := some "staff",
    lifespan := some "1h" })]

def crewFiles : Files := filesOf (Bytes.ofText (Pem.write "RSA PRIVATE KEY" crewKeyDer))
  (Bytes.ofText (Pem.write "CERTIFICATE" (crewCertificate "ca" []).encode))

def crewConfig : Config := configOf crewGroups crewAccounts crewGrants

/-- What the crew's server answers from. -/
def crew : World where
  engine := (loadEngine (authoritiesOf crewAuthority) crewConfig).toOption.getD
    (.denyAll (.ofLists [] []))
  authorities := authoritiesOf crewAuthority
  authentication := crewAuthority
  staticFiles := ∅

theorem load_crew : load crewFiles crewConfig = .ok crew := by
  refine load_worldOf load_crewAuthority ?_
  decide +kernel

end World
end CredentialServer
