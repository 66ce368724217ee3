import CredentialServer.X509.Certificate

/-!
# Certificates that others are checked against

A certificate can be relied on if every critical extension that it has is understood and no
understood one stands twice. One of the first version has no extensions at all. Main statement:
`isAnchor_of_extensions_eq_nil`.
-/

namespace CredentialServer

namespace X509

namespace Certificate

/-- The extensions that are understood, apart from the usage of the key. -/
def understood : List Oid :=
  [Oid.subjectAlternativeName, Oid.basicConstraints, Oid.nameConstraints,
    Oid.distributionPoints, Oid.extendedKeyUsage]

/-- Whether an extension can be relied on: it is understood and a sequence, or not critical. -/
def isReliable (e : Extension) : Bool :=
  if understood.contains e.oid then (Der.readOnly? .shortest Der.sequence e.value).isSome
  else e.oid = Oid.keyUsage || !e.critical

/-- Whether no understood extension stands twice. -/
def hasNoRepetition (l : List Extension) : Bool :=
  (Oid.keyUsage :: understood).all (fun oid =>
    match Extension.findUnique oid l with
    | .repeated => false
    | _ => true)

/-- Whether others can be checked against a certificate. -/
def isAnchor (c : Certificate) : Bool :=
  if c.contents.version = 1 then c.contents.extensions.isEmpty
  else c.contents.version = 3 && c.contents.algorithm = c.algorithm &&
    c.contents.extensions.all isReliable && hasNoRepetition c.contents.extensions

/-- Nothing can go wrong with extensions where there are none. -/
theorem isAnchor_of_extensions_eq_nil {c : Certificate} (h : c.contents.extensions = [])
    (hv : c.contents.version = 3) (ha : c.contents.algorithm = c.algorithm) :
    c.isAnchor = true := by
  simp only [isAnchor, h, hv, ha]
  decide

end Certificate

end X509

end CredentialServer
