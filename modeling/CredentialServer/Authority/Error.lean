/-!
# What can go wrong with an authority

Each cause is a constructor. A cause inside a key, a certificate or a request that only its format
knows has no text of its own. Main definition: `AuthorityError.message?` gives the texts.
-/

namespace CredentialServer

/-- Why an authority cannot be loaded, cannot sign or does not trust. -/
inductive AuthorityError where
  /-- The private key is no key of a kind that is supported. -/
  | malformedKey
  /-- A number in an RSA key is zero or negative. -/
  | nonPositiveKeyComponent
  /-- The certificate or public key is malformed. -/
  | malformedCertificate
  /-- The certificate is for no RSA key. -/
  | certificateNotRsa
  /-- The public half does not belong to the private key. -/
  | keyMismatch
  /-- The private key is locked by a passphrase. -/
  | encryptedKey
  /-- A half of a stored pair is missing. -/
  | emptySecret
  | emptyPublic
  /-- The request is malformed, badly signed, or asks for too much. -/
  | malformedRequest
  /-- The armoured text is something else than a request. -/
  | unexpectedBlock (label : String)
  /-- A text of public keys starts with something else. -/
  | noKeysFound
  | lifespanTooShort
  | lifespanOutOfRange
  /-- The certificate cannot be written or signed. -/
  | signing
  | missingClientCertificate
  /-- The certificate is malformed or not signed by this authority. -/
  | unverifiedClientCertificate
  | outsideValidity
  | notForClients
  | noCommonName
  deriving DecidableEq, Repr

/-- What an error says, if it has a text of its own. -/
def AuthorityError.message? : AuthorityError → Option String
  | .malformedKey | .malformedCertificate | .malformedRequest | .signing
  | .unverifiedClientCertificate => none
  | .nonPositiveKeyComponent => some "invalid private key: rsa key component is not positive"
  | .certificateNotRsa => some "invalid certificate: expected rsa public key in certificate"
  | .keyMismatch => some "mismatched public and private keys"
  | .encryptedKey => some "ssh authority key is encrypted"
  | .emptySecret => some "static authority key is empty"
  | .emptyPublic => some "static authority cert is empty"
  | .unexpectedBlock label =>
    some ("invalid certificate signing request: unexpected pem block " ++ label)
  | .noKeysFound => some "no keys found"
  | .lifespanTooShort => some "lifespan is too short for certificate signature"
  | .lifespanOutOfRange => some "lifespan is out of range"
  | .missingClientCertificate => some "client certificate must be present"
  | .outsideValidity =>
    some "certificate not valid under this authority: certificate is outside its validity window"
  | .notForClients =>
    some "certificate not valid under this authority: certificate lacks client auth usage"
  | .noCommonName =>
    some "certificate not valid under this authority: certificate has no common name"

end CredentialServer
