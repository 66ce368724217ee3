import CredentialServer.X509.Certificate

/-!
# Certificate requests

A request names a subject and a public key, may ask for extensions, and is signed with the key
itself. Main definition: `Request.accepted?` gives the requests from which a certificate can be
made, and the label that the certified key gets.
-/

namespace CredentialServer

namespace X509

/-- A request with the extensions that it asks for, and the octets that were signed. -/
structure Request where
  subject : Name
  publicKey : PublicKeyInfo
  extensions : List Extension
  signed : Bytes
  algorithm : AlgorithmId
  signature : Bytes
  deriving DecidableEq, Repr

namespace Request

/-- Whether an element of an encoding is a text that can be a password. -/
def isPassword (e : Der.Element) : Bool :=
  if e.tag = Der.utf8String ∨ e.tag = 0x13 then (Bytes.toText? e.content).isSome
  else [0x14, 0x1c, 0x1e].contains e.tag

/-- The extensions that an attribute of a request asks for, if it asks for any; a password must be a
text, and other attributes may have any value. -/
def requestedBy? (e : Der.Element) : Option (Option (List Extension)) := do
  guard (e.tag = Der.sequence)
  let (oid, rest) ← Der.readTag? .any Der.objectIdentifier e.content
  let (values, _) ← Der.readTag? .any Der.set rest
  if Oid.mk oid = Oid.extensionRequest then
    let (value, _) ← Der.readTag? .any Der.sequence values
    let l ← Der.readAll? .any value
    return some (← Name.each? Der.sequence Extension.ofContent? l)
  else if Oid.mk oid = Oid.challengePassword then
    let (password, _) ← Der.read? .any values
    guard (isPassword password)
    return none
  else return none

/-- The request at the head of some octets. Of attributes that ask for extensions the first one
counts. -/
def ofDer? (b : Bytes) : Option Request := do
  let (content, _) ← Der.readTag? .any Der.sequence b
  let (statement, rest) ← Der.read? .any content
  guard (statement.tag = Der.sequence)
  let (_, inner) ← Der.readNatural? .any statement.content
  let (subject, inner) ← Der.readTag? .any Der.sequence inner
  let (key, inner) ← Der.read? .any inner
  let publicKey ← PublicKeyInfo.ofElement? .any key
  let (attributes, _) ← Der.readTag? .any (Der.explicitTag 0) inner
  let requested ← (← Der.readAll? .any attributes).mapM requestedBy?
  let (algorithm, rest) ← Der.readTag? .any Der.sequence rest
  let algorithm ← AlgorithmId.ofContent? .any algorithm
  let (bits, _) ← Der.readTag? .any Der.bitString rest
  let signature ← Der.bits? bits
  return ⟨Name.ofContent subject, publicKey, (requested.findSome? id).getD [], statement.raw,
    algorithm, signature⟩

/-- Whether a request is signed with its own key. -/
def isProved (r : Request) : Bool := r.publicKey.verify r.algorithm r.signed r.signature

/-- Whether a certificate can be made although a request asks for an extension: key usages,
alternative names of kinds that can be carried over, and well-known purposes are looked at, and
nothing else may be asked for. -/
def isTolerated (e : Extension) : Bool :=
  if e.oid = Oid.keyUsage then
    ((Der.readTag? .any Der.bitString e.value).bind (fun r => Der.bits? r.1)).isSome
  else if e.oid = Oid.subjectAlternativeName then
    match alternativeNames? e.value with
    | some l => l.all GeneralName.isCarried
    | none => false
  else if e.oid = Oid.extendedKeyUsage then
    match usages? e.value with
    | some l => l.all knownUsages.contains
    | none => false
  else false

/-- The algorithm that labels the certified key, by the algorithm of the request's signature. -/
def label? (a : AlgorithmId) : Option AlgorithmId :=
  if a.oid = Oid.rsaSha256 ∨ a.oid = Oid.rsaSha384 ∨ a.oid = Oid.rsaSha512 then
    some (.withNull Oid.rsaEncryption)
  else if a.oid = Oid.curveSha256 then some (.withOid Oid.curveKey Oid.curveP256)
  else if a.oid = Oid.curveSha384 then some (.withOid Oid.curveKey Oid.curveP384)
  else if a.oid = Oid.edwards then some (.plain Oid.edwards)
  else none

/-- The key that a certificate for a request certifies, if one can be made: the request is signed
with its key, its subject can be carried over and the extensions that it asks for are tolerated. -/
def accepted? (r : Request) : Option PublicKeyInfo :=
  if r.isProved ∧ (Name.carried? r.subject).isSome ∧ r.extensions.all isTolerated then
    (label? r.algorithm).map (fun a => PublicKeyInfo.make a r.publicKey.key)
  else none

end Request

end X509

end CredentialServer
