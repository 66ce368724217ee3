import CredentialServer.Crypto.Sha1

/-!
# Digest functions

The four digest functions that signatures name, and keyed digests. Main statement: `length_run`.
-/

namespace CredentialServer

/-- A digest function. -/
inductive Digest where
  | sha1
  | sha256
  | sha384
  | sha512
  deriving DecidableEq, Repr

namespace Digest

def length : Digest → Nat
  | .sha1 => 20
  | .sha256 => 32
  | .sha384 => 48
  | .sha512 => 64

/-- How many octets are mixed in at a time. -/
def blockLength : Digest → Nat
  | .sha1 | .sha256 => 64
  | .sha384 | .sha512 => 128

/-- The digest of a message. -/
def run : Digest → Bytes → Bytes
  | .sha1 => CredentialServer.sha1
  | .sha256 => CredentialServer.sha256
  | .sha384 => CredentialServer.sha384
  | .sha512 => CredentialServer.sha512

@[simp] theorem length_run (h : Digest) (message : Bytes) : (h.run message).length = h.length := by
  cases h <;> simp [run, length]

/-- What a signature's frame says before a digest, to name its function and its length. -/
def frame : Digest → Bytes
  | .sha1 => [0x30, 0x21, 0x30, 0x09, 0x06, 0x05, 0x2b, 0x0e, 0x03, 0x02, 0x1a, 0x05, 0x00, 0x04,
      0x14]
  | .sha256 => [0x30, 0x31, 0x30, 0x0d, 0x06, 0x09, 0x60, 0x86, 0x48, 0x01, 0x65, 0x03, 0x04, 0x02,
      0x01, 0x05, 0x00, 0x04, 0x20]
  | .sha384 => [0x30, 0x41, 0x30, 0x0d, 0x06, 0x09, 0x60, 0x86, 0x48, 0x01, 0x65, 0x03, 0x04, 0x02,
      0x02, 0x05, 0x00, 0x04, 0x30]
  | .sha512 => [0x30, 0x51, 0x30, 0x0d, 0x06, 0x09, 0x60, 0x86, 0x48, 0x01, 0x65, 0x03, 0x04, 0x02,
      0x03, 0x05, 0x00, 0x04, 0x40]

/-- The digest of a message under a key. -/
def keyed (h : Digest) (key message : Bytes) : Bytes :=
  let key := if h.blockLength < key.length then h.run key else key
  let key := key ++ List.replicate (h.blockLength - key.length) 0
  h.run (key.map (· ^^^ 0x5c) ++ h.run (key.map (· ^^^ 0x36) ++ message))

end Digest

end CredentialServer
