import CredentialServer.Proofs.Der.Writing
import CredentialServer.Proofs.Server.Identity

/-! # Whose key is certified, and as what

A text with a request is taken apart twice, by two readers: one picks the request whose signature is
checked, the other the one whose key is certified.  The key is written anew, under a label that its
request's signature suggests.  `Labels` says how the two are related, and when the certified key is,
octet by octet, the checked one.  Main statement: `labels_of_issue`. -/

namespace CredentialServer
namespace X509

variable {b rest bits : Bytes} {e : Der.Element} {k : PublicKeyInfo}
variable {algorithm label : AlgorithmId} {r : Request}

/-! ### Keys as they are written -/

/-- A public key is written in the distinguished encoding. -/
def PublicKeyInfo.IsDistinguished (k : PublicKeyInfo) : Prop :=
  k.raw = (make k.algorithm k.key).raw

/-- The content of the encoding of an algorithm's name. -/
def AlgorithmId.content (a : AlgorithmId) : Bytes :=
  a.oid.encode ++ (a.parameters.map (·.raw)).getD []

theorem ofContent?_label (h : Request.label? algorithm = some label) :
    AlgorithmId.ofContent? .any label.content = some label := by
  unfold Request.label? at h
  split at h
  · cases h
    decide
  · split at h
    · cases h
      decide
    · split at h
      · cases h
        decide
      · split at h
        · cases h
          decide
        · cases h

/-- What was read from octets that write a labelled key is that key. -/
theorem PublicKeyInfo.eq_of_raw_eq (he : Der.read? .any b = some (e, rest))
    (hk : ofElement? .any e = some k)
    (hlabel : AlgorithmId.ofContent? .any label.content = some label)
    (hraw : k.raw = (make label bits).raw) : k.algorithm = label ∧ k.key = bits := by
  unfold ofElement? at hk
  obtain ⟨_, -, hk⟩ := exists_of_bind_eq_some hk
  obtain ⟨⟨content, more⟩, hcontent, hk⟩ := exists_of_bind_eq_some hk
  obtain ⟨algorithm, halgorithm, hk⟩ := exists_of_bind_eq_some hk
  obtain ⟨⟨string, _⟩, hstring, hk⟩ := exists_of_bind_eq_some hk
  obtain ⟨key, hkey, hk⟩ := exists_of_bind_eq_some hk
  cases hk
  have hsize := Der.length_lt_of_raw_eq_encode he hraw
  obtain ⟨-, heq⟩ := Der.eq_of_raw_eq_encode he hraw
  rw [List.length_append] at hsize
  have hlabelSize : label.content.length < UInt64.size :=
    Der.length_lt_of_encode (Nat.lt_of_le_of_lt (Nat.le_add_right _ _) hsize)
  have hbitsSize := Der.length_lt_of_encode (Nat.lt_of_le_of_lt (Nat.le_add_left _ _) hsize)
  rw [heq, show label.encode = Der.encode Der.sequence label.content from rfl,
    Der.readTag?_encode (by decide) hlabelSize] at hcontent
  cases hcontent
  rw [hlabel] at halgorithm
  cases halgorithm
  rw [← List.append_nil (Der.encodeBits bits), Der.encodeBits,
    Der.readTag?_encode (by decide) hbitsSize] at hstring
  cases hstring
  rw [Der.bits?_zero] at hkey
  cases hkey
  exact ⟨rfl, rfl⟩

/-- A key that was read is written like a labelled one just if it has this label and these bits, and
was written in the distinguished encoding. -/
theorem PublicKeyInfo.raw_eq_iff (he : Der.read? .any b = some (e, rest))
    (hk : ofElement? .any e = some k) (hlabel : Request.label? algorithm = some label) :
    (make label bits).raw = k.raw ↔ k.key = bits ∧ k.algorithm = label ∧ k.IsDistinguished := by
  constructor
  · intro h
    obtain ⟨rfl, rfl⟩ := eq_of_raw_eq he hk (ofContent?_label hlabel) h.symm
    exact ⟨rfl, rfl, h.symm⟩
  · rintro ⟨rfl, rfl, h⟩
    exact h.symm

theorem Request.exists_element (h : Request.ofDer? b = some r) : ∃ b' e rest,
    Der.read? .any b' = some (e, rest) ∧ PublicKeyInfo.ofElement? .any e = some r.publicKey := by
  unfold Request.ofDer? at h
  obtain ⟨content, -, h⟩ := exists_of_bind_eq_some h
  obtain ⟨statement, -, h⟩ := exists_of_bind_eq_some h
  obtain ⟨_, -, h⟩ := exists_of_bind_eq_some h
  obtain ⟨version, -, h⟩ := exists_of_bind_eq_some h
  obtain ⟨subject, -, h⟩ := exists_of_bind_eq_some h
  obtain ⟨⟨e, rest⟩, hkey, h⟩ := exists_of_bind_eq_some h
  obtain ⟨publicKey, hpublic, h⟩ := exists_of_bind_eq_some h
  obtain ⟨attributes, -, h⟩ := exists_of_bind_eq_some h
  obtain ⟨elements, -, h⟩ := exists_of_bind_eq_some h
  obtain ⟨requested, -, h⟩ := exists_of_bind_eq_some h
  obtain ⟨algorithm, -, h⟩ := exists_of_bind_eq_some h
  obtain ⟨algorithm, -, h⟩ := exists_of_bind_eq_some h
  obtain ⟨bits, -, h⟩ := exists_of_bind_eq_some h
  obtain ⟨signature, -, h⟩ := exists_of_bind_eq_some h
  cases h
  exact ⟨_, e, rest, hkey, hpublic⟩

theorem Request.accepted?_eq_some (h : r.accepted? = some k) : r.isProved = true ∧
    ∃ label, label? r.algorithm = some label ∧ k = .make label r.publicKey.key := by
  unfold accepted? at h
  split at h
  · next hgood =>
    obtain ⟨label, hlabel, rfl⟩ := Option.map_eq_some_iff.mp h
    exact ⟨hgood.1, label, hlabel, rfl⟩
  · cases h

end X509

namespace TlsAuthority

open X509

variable {a : TlsAuthority} {text : String} {key : PublicKeyInfo} {checked taken : X509.Request}

/-! ### The two readers -/

/-- The request in a text whose signature is checked. -/
def checked? (text : String) : Option X509.Request :=
  (Pem.scan? (Bytes.ofText text)).bind fun block =>
    if block.label = "CERTIFICATE REQUEST".toList then X509.Request.ofDer? block.content else none

/-- The request in a text whose key is taken. -/
def taken? (text : String) : Option X509.Request :=
  (Pem.find? text.toList).bind fun block => X509.Request.ofDer? block.content

theorem exists_ofDer?_of_checked? (h : checked? text = some checked) :
    ∃ der, X509.Request.ofDer? der = some checked := by
  obtain ⟨block, -, h⟩ := Option.bind_eq_some_iff.mp h
  split at h
  · exact ⟨_, h⟩
  · cases h

theorem requestedKey_eq_ok (h : requestedKey text = .ok key) : ∃ checked taken,
    checked? text = some checked ∧ checked.isProved = true ∧
      taken? text = some taken ∧ taken.accepted? = some key := by
  unfold requestedKey at h
  split at h
  case h_2 => cases h
  next block hblock =>
  obtain ⟨hlabel, h⟩ := of_check_eq_ok h
  split at h
  case h_2 => cases h
  next checked hchecked =>
  obtain ⟨hproved, h⟩ := of_check_eq_ok h
  split at h
  case h_2 => cases h
  next block' hblock' =>
  split at h
  case h_2 => cases h
  next taken htaken =>
  split at h
  case h_2 => cases h
  next key haccepted =>
  cases h
  refine ⟨checked, taken, ?_, hproved, ?_, haccepted⟩
  · rw [checked?, hblock, Option.bind_some, if_pos hlabel, hchecked]
  · rw [taken?, hblock', Option.bind_some, htaken]

section
variable {before : List (List Char)} (hbefore : Pem.IsPreamble before) (der : Bytes)
variable (after : List Char)
include hbefore

theorem checked?_within : checked? (Pem.within before (Pem.write "CERTIFICATE REQUEST" der) after) =
    X509.Request.ofDer? der := by
  rw [checked?, Pem.scan?_within isLabel_request der hbefore, Option.bind_some]
  exact if_pos rfl

/-- Both readers pick the same request from a text with a single one, whatever else it says. -/
theorem taken?_within
    (h : checked? (Pem.within before (Pem.write "CERTIFICATE REQUEST" der) after) = some checked) :
    taken? (Pem.within before (Pem.write "CERTIFICATE REQUEST" der) after) = some checked := by
  rw [checked?_within hbefore] at h
  have hne : der ≠ [] := by
    rintro rfl
    cases h
  rw [taken?, Pem.find?_within isLabel_request hne hbefore, Option.bind_some, h]

end

/-- What the key in a certificate has to do with the requests in the text that it was made for. -/
structure Labels (text : String) (certified : PublicKeyInfo) (checked taken : X509.Request)
    (label : AlgorithmId) : Prop where
  checks : checked? text = some checked
  proved : checked.isProved = true
  takes : taken? text = some taken
  /-- The holder of the certified key has proved to hold it, too. -/
  takenProved : taken.isProved = true
  /-- The label of the certified key is the one that its request's signature suggests. -/
  labelled : X509.Request.label? taken.algorithm = some label
  written : certified = .make label taken.publicKey.key
  /-- The certified key is the checked one, octet by octet, just if both readers found the same key
  and it was written as the certificate writes it. -/
  same_iff : certified.raw = checked.publicKey.raw ↔
    checked.publicKey.key = taken.publicKey.key ∧ checked.publicKey.algorithm = label ∧
      checked.publicKey.IsDistinguished
  /-- There is only one request if nothing that looks like one stands before it. -/
  alone : ∀ before der after, Pem.IsPreamble before →
    text = Pem.within before (Pem.write "CERTIFICATE REQUEST" der) after → taken = checked

theorem labels_of_requestedKey (h : requestedKey text = .ok key) :
    ∃ checked taken label, Labels text key checked taken label := by
  obtain ⟨checked, taken, hchecked, hproved, htaken, haccepted⟩ := requestedKey_eq_ok h
  obtain ⟨htakenProved, label, hlabel, hkey⟩ := X509.Request.accepted?_eq_some haccepted
  refine ⟨checked, taken, label, hchecked, hproved, htaken, htakenProved, hlabel, hkey, ?_, ?_⟩
  · obtain ⟨der, hread⟩ := exists_ofDer?_of_checked? hchecked
    obtain ⟨b, e, rest, he, hpublic⟩ := X509.Request.exists_element hread
    rw [hkey]
    exact PublicKeyInfo.raw_eq_iff he hpublic hlabel
  · rintro before der after hbefore rfl
    rw [taken?_within hbefore der after hchecked] at htaken
    exact (Option.some.inj htaken).symm

/-- **The key of a certificate is the one of a proved request**, under the label that the signature
of this request suggests; it is the checked key to the octet just if that one was labelled so. -/
theorem labels_of_issue {now : Instant} {serial : Nat} {subject : Subject} {c : Certificate}
    (h : a.issue now serial text subject = .ok c) :
    ∃ checked taken label, Labels text c.contents.publicKey checked taken label := by
  obtain ⟨key, names, hkey, -, -, h⟩ := issue_eq_ok_iff.mp h
  rw [(certify_eq_ok h).1]
  exact labels_of_requestedKey hkey

theorem labels_badge : ∃ checked taken label,
    Labels (Pem.write "CERTIFICATE REQUEST" World.badgeRequestDer) World.badge.contents.publicKey
      checked taken label :=
  labels_of_issue World.issue_badge

/-! ### A key under a stranger's label -/

/-- A request for the base point of the smaller curve, signed with a digest that goes with the
larger one.  The secret number and the one behind the signature are one. -/
def curveRequest : X509.Request :=
  let subject := Name.ofCommonName "node"
  let publicKey := PublicKeyInfo.make (.withOid Oid.curveKey Oid.curveP256)
    (Curve.p256.encode Curve.p256.baseX Curve.p256.baseY)
  let signed := Der.encode Der.sequence (Der.encodeNatural 0 ++ subject.encode ++ publicKey.raw ++
    Der.encode (Der.explicitTag 0) [])
  let r := Curve.p256.baseX
  let s := (Ecdsa.leading .p256 (Digest.sha384.run signed) + r) % Curve.p256.order
  ⟨subject, publicKey, [], signed, .plain Oid.curveSha384,
    Der.encode Der.sequence (Der.encodeNatural r ++ Der.encodeNatural s)⟩

/-- The request as it is sent, before it is armoured. -/
def curveRequestDer : Bytes := Der.encode Der.sequence (curveRequest.signed ++
  curveRequest.algorithm.encode ++ Der.encodeBits curveRequest.signature)

theorem ofDer?_curveRequestDer : X509.Request.ofDer? curveRequestDer = some curveRequest := by
  decide +kernel

theorem isProved_curveRequest : curveRequest.isProved = true := by decide +kernel

/-- The key gets the label of the other curve. -/
theorem accepted?_curveRequest : curveRequest.accepted? =
    some (.make (.withOid Oid.curveKey Oid.curveP384) curveRequest.publicKey.key) := by
  have hsubject : (Name.carried? curveRequest.subject).isSome = true := by decide +kernel
  have hextensions : curveRequest.extensions.all X509.Request.isTolerated = true := rfl
  have hlabel : X509.Request.label? curveRequest.algorithm =
      some (.withOid Oid.curveKey Oid.curveP384) := by decide +kernel
  rw [X509.Request.accepted?, if_pos ⟨isProved_curveRequest, hsubject, hextensions⟩, hlabel,
    Option.map_some]

theorem mislabelled_curveRequest : ∃ c checked,
    World.crewAuthority.issue ⟨0⟩ 7 (Pem.write "CERTIFICATE REQUEST" curveRequestDer)
      World.badgeSubject = .ok c ∧
    checked? (Pem.write "CERTIFICATE REQUEST" curveRequestDer) = some checked ∧
    checked.isProved = true ∧ c.contents.publicKey.raw ≠ checked.publicKey.raw := by
  have ha : World.crewAuthority.IsLoaded := isLoaded_of_load World.load_crewAuthority
  have hkey := requestedKey_write ofDer?_curveRequestDer isProved_curveRequest
    accepted?_curveRequest
  obtain ⟨c, hc⟩ := (ha.exists_issue_iff hkey ⟨0⟩ 7 World.badgeSubject).mpr ⟨by decide, nofun⟩
  have hchecked := checked?_within Pem.isPreamble_nil curveRequestDer []
  rw [Pem.within_nil, ofDer?_curveRequestDer] at hchecked
  refine ⟨c, curveRequest, hc, hchecked, isProved_curveRequest, ?_⟩
  obtain ⟨key, names, hfound, -, -, hc⟩ := issue_eq_ok_iff.mp hc
  rw [hkey] at hfound
  cases hfound
  rw [(certify_eq_ok hc).1]
  show (PublicKeyInfo.make (.withOid Oid.curveKey Oid.curveP384) _).raw ≠ _
  decide +kernel

end TlsAuthority
end CredentialServer
