import SshKeys.Cipher.Blowfish
import SshKeys.Hash.Sha512

/-!
# The bcrypt key derivation of OpenSSH

PBKDF2 with bcrypt in the place of the keyed hash, and with the blocks of the
result interleaved, so that every output byte depends on all the work.
-/

namespace SshKeys.Bcrypt

/-- Why no key can be derived. -/
inductive Fault where
  | parameterLength
  | rounds
  | outputLength
  deriving DecidableEq

def Fault.message : Fault → String
  | .parameterLength => "Invalid parameter length"
  | .rounds => "Invalid number of rounds"
  | .outputLength => "Invalid output length"

/-- The plaintext every digest starts from. -/
def seedText : Bytes := Bytes.ofString "OxychromaticBlowfishSwatDynamite"

/-- Sixty-four alternating expansions under the salt and the key. -/
def strengthen (salt key : Blowfish.Key) : Nat → Blowfish.Table → Blowfish.Table
  | 0, t => t
  | n + 1, t =>
    strengthen salt key n
      (Blowfish.expand Blowfish.noSalt key (Blowfish.expand Blowfish.noSalt salt t))

/-- `n` encryptions of one block of two words. -/
def encryptTimes (t : Blowfish.Table) : Nat → UInt32 → UInt32 → Bytes
  | 0, l, r => Bytes.le32 l ++ Bytes.le32 r
  | n + 1, l, r =>
    let (l, r) := Blowfish.encipher t l r
    encryptTimes t n l r

def encryptPairs (t : Blowfish.Table) : List UInt32 → Bytes
  | l :: r :: rest => encryptTimes t 64 l r ++ encryptPairs t rest
  | _ => []

/-- The 32-byte bcrypt digest of two 64-byte hashes. -/
def digest (key salt : Bytes) : Bytes :=
  let key := Blowfish.Key.ofBytes key
  let salt := Blowfish.Key.ofBytes salt
  let t := strengthen salt key 64 (Blowfish.expand salt key Blowfish.blank)
  encryptPairs t (Bytes.words32 seedText)

/-- The exclusive or of `rounds` further digests, each salted by the one before. -/
def chain (key : Bytes) : (rounds : Nat) → (last sum : Bytes) → Bytes
  | 0, _, sum => sum
  | n + 1, last, sum =>
    let next := digest key (sha512 last)
    chain key n next (Bytes.xor sum next)

/-- Block `i` of the derived stream, 32 bytes; blocks are counted from one. -/
def block (key salt : Bytes) (rounds i : Nat) : Bytes :=
  let first := digest key (sha512 (salt ++ Bytes.ofNat 4 i))
  chain key (rounds - 1) first first

/-- Byte `i` of the result is byte `i / stride` of block `i % stride`. -/
def interleave (blocks : Array Bytes) (len : Nat) : Bytes :=
  let columns := blocks.map List.toArray
  (List.range len).map fun i => (columns.getD (i % columns.size) #[]).getD (i / columns.size) 0

def maxOutput : Nat := 1024

/-- `len` bytes of key material, for 1 to 1024 bytes. -/
def derive (passphrase salt : Bytes) (rounds len : Nat) : Except Fault Bytes :=
  if passphrase = [] ∨ salt = [] then .error .parameterLength
  else if rounds = 0 then .error .rounds
  else if len = 0 ∨ maxOutput < len then .error .outputLength
  else
    let key := sha512 passphrase
    let stride := (len + 31) / 32
    .ok (interleave ((Array.range stride).map fun i => block key salt rounds (i + 1)) len)

end SshKeys.Bcrypt
