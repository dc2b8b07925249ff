import SshKeys.Hash.Hmac

/-!
# PBKDF2

RFC 8018, section 5.2, over HMAC with a SHA-2 function.
-/

namespace SshKeys.Pbkdf2

/-- The exclusive or of `rounds` further values of the keyed hash, each of the one before. -/
def chain (h : Sha2) (key : Bytes) : (rounds : Nat) → (last sum : Bytes) → Bytes
  | 0, _, sum => sum
  | n + 1, last, sum =>
    let next := hmac h key last
    chain h key n next (Bytes.xor sum next)

/-- Block `i` of the derived stream; blocks are counted from one. -/
def block (h : Sha2) (key salt : Bytes) (rounds i : Nat) : Bytes :=
  let first := hmac h key (salt ++ Bytes.ofNat 4 i)
  chain h key (rounds - 1) first first

/-- `len` bytes derived from a passphrase in `rounds` rounds. -/
def derive (h : Sha2) (passphrase salt : Bytes) (rounds len : Nat) : Bytes :=
  let count := (len + h.digestSize - 1) / h.digestSize
  ((List.range count).flatMap fun i => block h passphrase salt rounds (i + 1)).take len

end SshKeys.Pbkdf2
