import SshKeys.Buffer
import SshKeys.Curve.Edwards
import SshKeys.Key.Public

/-!
# Key pairs

A private key with the public key it is stored beside, and the binary form the
private section of a container holds.
-/

namespace SshKeys

/-- The integers of an RSA key, each as it is written. -/
structure RsaPair where
  n : Bytes
  e : Bytes
  d : Bytes
  iqmp : Bytes
  p : Bytes
  q : Bytes
  deriving DecidableEq, Repr

structure DsaPair where
  p : Bytes
  q : Bytes
  g : Bytes
  y : Bytes
  x : Bytes
  deriving DecidableEq, Repr

/-- What a security token keeps outside itself. -/
structure TokenPart where
  flags : UInt8
  handle : Bytes
  reserved : Bytes
  deriving DecidableEq, Repr

inductive KeyPair where
  | rsa (key : RsaPair)
  | dsa (key : DsaPair)
  | ecdsa (curve : NistCurve) (point scalar : Bytes)
  | ed25519 (key seed : Bytes)
  | skEcdsa (point : Bytes) (application : String) (token : TokenPart)
  | skEd25519 (key : Bytes) (application : String) (token : TokenPart)
  | other (name : String) (body secret : Bytes)
  deriving DecidableEq, Repr

namespace KeyPair

def publicKey : KeyPair → PublicKey
  | rsa k => .rsa k.e k.n
  | dsa k => .dsa k.p k.q k.g k.y
  | ecdsa curve point _ => .ecdsa curve point
  | ed25519 key _ => .ed25519 key
  | skEcdsa point application _ => .skEcdsa point application
  | skEd25519 key application _ => .skEd25519 key application
  | other name body _ => .other name body

def algorithm (k : KeyPair) : Algorithm :=
  k.publicKey.algorithm

/-- The pair a seed determines. -/
def ofSeed (seed : Bytes) : KeyPair :=
  .ed25519 (Ed25519.publicKey seed) seed

/-- The pair a scalar determines. -/
def ofScalar (curve : NistCurve) (d : Nat) : KeyPair :=
  .ecdsa curve (curve.publicPoint d) (Bytes.ofNat curve.fieldSize d)

end KeyPair

namespace KeyReader

/-- A scalar in as many bytes as a coordinate has; one more, in front, must be zero. -/
def scalar (curve : NistCurve) : KeyReader Bytes :=
  nested do
    if (← remaining) = curve.fieldSize + 1 then
      if (← byte) ≠ 0 then throw .format
    take curve.fieldSize

/-- A seed with its public key behind it, which must be the one given before. -/
def seed (key : Bytes) : KeyReader Bytes :=
  nested do
    let b ← take 64
    let seed := b.take 32
    if Ed25519.publicKey seed ≠ b.drop 32 then throw .crypto
    if b.drop 32 ≠ key then throw .crypto
    pure seed

def tokenPart : KeyReader TokenPart := do
  let flags ← byte
  let handle ← field
  let reserved ← field
  pure ⟨flags, handle, reserved⟩

/-- A key pair of a known algorithm. -/
def keyPairOf : Algorithm → KeyReader KeyPair
  | .rsa | .rsaSha256 | .rsaSha512 => do
    let n ← integer
    let e ← integer
    let d ← integer
    let iqmp ← integer
    let p ← integer
    let q ← integer
    pure (.rsa ⟨n, e, d, iqmp, p, q⟩)
  | .dsa => do
    let p ← integer
    let q ← integer
    let g ← integer
    let y ← integer
    let x ← integer
    pure (.dsa ⟨p, q, g, y, x⟩)
  | .ecdsa curve => do
    let (own, point) ← ecdsaPoint
    let d ← scalar own
    if own = curve then pure (.ecdsa curve point d) else throw .algorithm
  | .ed25519 => do
    let key ← nested (take 32)
    pure (.ed25519 key (← seed key))
  | .skEcdsa => do
    let (point, application) ← skEcdsaPoint
    pure (.skEcdsa point application (← tokenPart))
  | .skEd25519 => do
    let key ← nested (take 32)
    let application ← text
    pure (.skEd25519 key application (← tokenPart))
  | .other name => do
    let body ← field
    pure (.other name body (← field))

def keyPair : KeyReader KeyPair := do
  keyPairOf (← name Algorithm.ofName?)

end KeyReader

namespace KeyPair

open SshKeys.Field (putString putText stringLength)

/-- A scalar is written with a zero in front when its highest bit is set. -/
def scalarField (d : Bytes) : Bytes :=
  if 0x80 ≤ d.headD 0 then 0 :: d else d

def tokenFields (t : TokenPart) : Bytes :=
  t.flags :: putString t.handle ++ putString t.reserved

/-- The fields after the name. -/
def fields : KeyPair → Bytes
  | rsa k =>
    putString k.n ++ putString k.e ++ putString k.d ++ putString k.iqmp ++ putString k.p
      ++ putString k.q
  | dsa k => putString k.p ++ putString k.q ++ putString k.g ++ putString k.y ++ putString k.x
  | ecdsa curve point d => putText curve.name ++ putString point ++ putString (scalarField d)
  | ed25519 key seed => putString key ++ putString (seed ++ key)
  | skEcdsa point application token =>
    putText NistCurve.p256.name ++ putString point ++ putText application ++ tokenFields token
  | skEd25519 key application token =>
    putString key ++ putText application ++ tokenFields token
  | other _ body secret => putString body ++ putString secret

/-- The binary form. -/
def blob (k : KeyPair) : Bytes :=
  putText k.algorithm.name ++ k.fields

def scalarFieldLength (d : Bytes) : Nat :=
  (if 0x80 ≤ d.headD 0 then 1 else 0) + d.length

def tokenFieldsLength (t : TokenPart) : Nat :=
  1 + stringLength t.handle.length + stringLength t.reserved.length

/-- How many bytes `fields` takes. -/
def fieldsLength : KeyPair → Nat
  | rsa k =>
    stringLength k.n.length + stringLength k.e.length + stringLength k.d.length
      + stringLength k.iqmp.length + stringLength k.p.length + stringLength k.q.length
  | dsa k =>
    stringLength k.p.length + stringLength k.q.length + stringLength k.g.length
      + stringLength k.y.length + stringLength k.x.length
  | ecdsa curve point d =>
    stringLength curve.name.utf8ByteSize + stringLength point.length
      + stringLength (scalarFieldLength d)
  | ed25519 key seed => stringLength key.length + stringLength (seed.length + key.length)
  | skEcdsa point application token =>
    stringLength NistCurve.p256.name.utf8ByteSize + stringLength point.length
      + stringLength application.utf8ByteSize + tokenFieldsLength token
  | skEd25519 key application token =>
    stringLength key.length + stringLength application.utf8ByteSize + tokenFieldsLength token
  | other _ body secret => stringLength body.length + stringLength secret.length

/-- How many bytes the binary form takes, counted field by field. -/
def blobLength (k : KeyPair) : Nat :=
  stringLength k.algorithm.name.utf8ByteSize + k.fieldsLength

/-- Writes the binary form into a buffer with room for all of it. -/
def write (k : KeyPair) : Buffer UInt8 :=
  .writeAll k.blobLength [putText k.algorithm.name, k.fields]

/-- Reads a binary form; bytes after the key are left over. -/
def read (b : Bytes) : Except KeyFault (KeyPair × Bytes) := do
  let (key, rest) ← KeyReader.keyPair.run (.ofBytes b)
  pure (key, rest.bytes)

/-- The integers of the private part that the unencrypted writer takes its check number from. -/
def privateBytes : KeyPair → Bytes
  | rsa k => k.d
  | dsa k => k.x
  | ecdsa _ _ d => d
  | ed25519 _ seed => seed
  | skEcdsa _ _ _ => []
  | skEd25519 _ _ _ => []
  | other _ _ secret => secret

/-- The exclusive or of the complete words of the private part. -/
def checkNumber (k : KeyPair) : UInt32 :=
  (Bytes.words32 k.privateBytes).foldl (· ^^^ ·) 0

end KeyPair

end SshKeys
