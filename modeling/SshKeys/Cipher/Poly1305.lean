import SshKeys.Bytes
import SshKeys.Chunks

/-!
# Poly1305

The one-time authenticator of RFC 8439: the message is read as a polynomial over
the integers modulo `2 ^ 130 - 5` and evaluated at a secret point.
-/

namespace SshKeys.Poly1305

def prime : Nat := 1 <<< 130 - 5

/-- A piece of at most sixteen bytes, with a one written behind it. -/
def coefficient (piece : Bytes) : Nat :=
  Bytes.toNatLE (piece ++ [1])

/-- The secret point has 22 of its bits cleared. -/
def point (key : Bytes) : Nat :=
  Bytes.toNatLE (key.take 16) &&& 0x0ffffffc0ffffffc0ffffffc0fffffff

/-- The sixteen-byte tag under a 32-byte key.  A last partial piece is not filled up. -/
def tag (key message : Bytes) : Bytes :=
  let r := point key
  let value := (chunks 16 message).foldl (fun acc p => (acc + coefficient p) * r % prime) 0
  Bytes.ofNatLE 16 (value + Bytes.toNatLE (key.drop 16))

end SshKeys.Poly1305
