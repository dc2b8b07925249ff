import SshKeys.Der
import SshKeys.Document.Pkcs1
import SshKeys.Document.Sec1
import SshKeys.Key.Integer
import SshKeys.Key.Pair

/-!
# Private keys of any algorithm as documents

RFC 5958: a version, the algorithm, and the private key as the algorithm defines
it; version one goes with a public key, version zero without.
-/

namespace SshKeys

structure Pkcs8 where
  algorithm : Der.AlgorithmId
  privateKey : Bytes
  publicKey : Option Bytes
  deriving DecidableEq

/-! ## Names of algorithms -/

namespace ObjectId

def rsa : Bytes := [0x2a, 0x86, 0x48, 0x86, 0xf7, 0x0d, 0x01, 0x01, 0x01]

def ec : Bytes := [0x2a, 0x86, 0x48, 0xce, 0x3d, 0x02, 0x01]

def ed25519 : Bytes := [0x2b, 0x65, 0x70]

def curve : NistCurve → Bytes
  | .p256 => [0x2a, 0x86, 0x48, 0xce, 0x3d, 0x03, 0x01, 0x07]
  | .p384 => [0x2b, 0x81, 0x04, 0x00, 0x22]
  | .p521 => [0x2b, 0x81, 0x04, 0x00, 0x23]

end ObjectId

namespace RsaPair

/-- The pair of RSA numbers, if the second factor has an inverse modulo the first. -/
def ofNumbers? (k : Rsa.Numbers) : Option RsaPair := do
  let iqmp ← k.qinv?
  pure ⟨Integer.ofNat k.n, Integer.ofNat k.e, Integer.ofNat k.d, Integer.ofNat iqmp,
    Integer.ofNat k.p, Integer.ofNat k.q⟩

/-- The numbers of a pair, all of which must be positive. -/
def numbers? (k : RsaPair) : Option Rsa.Numbers := do
  let n ← Integer.value? k.n
  let e ← Integer.value? k.e
  let d ← Integer.value? k.d
  let p ← Integer.value? k.p
  let q ← Integer.value? k.q
  pure ⟨n, e, d, p, q⟩

end RsaPair

namespace Pkcs8

def label : String := "PRIVATE KEY"

/-! ## Reading -/

def reader : Der.Reader Pkcs8 :=
  Der.sequence do
    let version ← Der.natWithin 1
    guard (version ≤ 1)
    let algorithm ← Der.algorithmId
    let privateKey ← Der.octets
    let bits ← Der.field 1 (Der.content (Der.implicitTag 1))
    let publicKey ← (Sec1.wholeBits? bits : Option _)
    guard (publicKey.isSome = (version = 1))
    Der.furtherFields (← get).length
    pure ⟨algorithm, privateKey, publicKey⟩

def read? (document : Bytes) : Option Pkcs8 :=
  Der.whole reader document

/-- The seed in the private key of an Ed25519 document. -/
def seed? (k : Pkcs8) : Option Bytes :=
  match k.privateKey with
  | 0x04 :: 0x20 :: seed =>
    if k.algorithm = ⟨ObjectId.ed25519, none⟩ ∧ seed.length = 32
        ∧ k.publicKey.all (· = Ed25519.publicKey seed) then some seed
    else none
  | _ => none

def rsa? (k : Pkcs8) : Option Rsa.Numbers :=
  if k.algorithm = ⟨ObjectId.rsa, some (Der.nullTag, [])⟩ then Pkcs1.read? k.privateKey else none

/-- The scalar of an EC document whose parameters name the curve. -/
def scalar? (k : Pkcs8) (curve : NistCurve) : Option Nat :=
  if k.algorithm = ⟨ObjectId.ec, some (Der.objectIdTag, ObjectId.curve curve)⟩ then do
    (← Sec1.read? k.privateKey).scalarOn? curve
  else none

/-! ## Writing -/

/-- The document of a seed, which carries the public key. -/
def ofSeed (seed : Bytes) : Bytes :=
  Der.putSequence
    [Der.putNat 1, Der.putSequence [Der.putObjectId ObjectId.ed25519],
      Der.putOctets (Der.putOctets seed),
      Der.put (Der.implicitTag 1) (Der.bits (Ed25519.publicKey seed))]

def ofRsa (k : Rsa.Numbers) (qinv : Nat) : Bytes :=
  Der.putSequence
    [Der.putNat 0, Der.putSequence [Der.putObjectId ObjectId.rsa, Der.null],
      Der.putOctets (Pkcs1.write k qinv)]

def ofScalar (curve : NistCurve) (d : Nat) : Bytes :=
  Der.putSequence
    [Der.putNat 0,
      Der.putSequence [Der.putObjectId ObjectId.ec, Der.putObjectId (ObjectId.curve curve)],
      Der.putOctets (Sec1.write curve d)]

end Pkcs8

end SshKeys
