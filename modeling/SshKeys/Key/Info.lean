import SshKeys.Failure
import SshKeys.Hash.Md5
import SshKeys.Hash.Sha256
import SshKeys.Key.Integer
import SshKeys.Key.Public

/-!
# What a public key tells

The family of a key, its size in bits, and its fingerprints.  Families other
than the four of `KeyType` have fingerprints, but neither a type nor a size.
-/

namespace SshKeys

/-- The families a report can describe. -/
inductive KeyType where
  | rsa
  | ed25519
  | ecdsa
  | dsa
  deriving DecidableEq, Repr

def KeyType.name : KeyType → String
  | rsa => "rsa"
  | ed25519 => "ed25519"
  | ecdsa => "ecdsa"
  | dsa => "dsa"

structure Fingerprints where
  sha256 : String
  md5 : String
  deriving DecidableEq, Repr

namespace PublicKey

def keyType (k : PublicKey) : Except Failure KeyType :=
  match k with
  | rsa .. => .ok .rsa
  | dsa .. => .ok .dsa
  | ecdsa .. => .ok .ecdsa
  | ed25519 _ => .ok .ed25519
  | skEcdsa .. | skEd25519 .. | other .. => .error (.unsupportedAlgorithm k.algorithm.name)

/-- The size of the modulus, of the prime, or of the field of the curve. -/
def bitLength (k : PublicKey) : Except Failure Nat :=
  match k with
  | rsa _ n => .ok (Integer.bits n)
  | dsa p _ _ _ => .ok (Integer.bits p)
  | ecdsa curve _ => .ok curve.bits
  | ed25519 _ => .ok 256
  | skEcdsa .. | skEd25519 .. | other .. => .error (.unsupportedAlgorithm k.algorithm.name)

/-- The hashes of the binary form: SHA-256 in base64 without padding, MD5 in hexadecimal pairs. -/
def fingerprints (k : PublicKey) : Fingerprints where
  sha256 := "SHA256:" ++ String.ofList ((Base64.encodeUnpadded (sha256 k.blob)).map
    fun x => Char.ofNat x.toNat)
  md5 := "MD5:" ++ String.intercalate ":" ((md5 k.blob).map fun x => String.ofList (Bytes.hexPair x))

end PublicKey

end SshKeys
