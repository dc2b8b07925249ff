import SshKeys.Hash.Sha256
import SshKeys.Hash.Sha512

/-!
# Keyed hashing

HMAC over any of the SHA-2 functions, as RFC 2104 defines it.
-/

namespace SshKeys

/-- The SHA-2 functions by the name of their digest size in bits. -/
inductive Sha2 where
  | bits224
  | bits256
  | bits384
  | bits512
  deriving DecidableEq

namespace Sha2

def blockSize : Sha2 → Nat
  | bits224 | bits256 => 64
  | bits384 | bits512 => 128

def digestSize : Sha2 → Nat
  | bits224 => 28
  | bits256 => 32
  | bits384 => 48
  | bits512 => 64

def digest : Sha2 → Bytes → Bytes
  | bits224 => sha224
  | bits256 => sha256
  | bits384 => sha384
  | bits512 => sha512

end Sha2

/-- The key filled up with zeros to one block; a longer key is hashed first. -/
def hmacKey (h : Sha2) (key : Bytes) : Bytes :=
  let key := if h.blockSize < key.length then h.digest key else key
  key ++ Bytes.zeros (h.blockSize - key.length)

def hmac (h : Sha2) (key m : Bytes) : Bytes :=
  let key := hmacKey h key
  h.digest (key.map (· ^^^ 0x5c) ++ h.digest (key.map (· ^^^ 0x36) ++ m))

end SshKeys
