import CredentialServer.Bytes
import CredentialServer.Time.Instant

/-!
# What an operation takes from its surroundings

Tokens and certificates may go by different clocks, and both take random octets from one stream.
Main statement: `length_octets`.
-/

namespace CredentialServer

/-- The clocks and the random octets that one operation sees. -/
structure Moment where
  /-- The clock of tokens. -/
  tokenClock : Instant
  /-- The clock of certificates. -/
  signingClock : Instant
  /-- Random octets. -/
  random : Nat → UInt8

/-- The random octets from `start` on, `count` of them. -/
def Moment.octets (m : Moment) (start count : Nat) : Bytes :=
  (List.range count).map (fun i => m.random (start + i))

@[simp] theorem Moment.length_octets (m : Moment) (start count : Nat) :
    (m.octets start count).length = count := by simp [octets]

end CredentialServer
