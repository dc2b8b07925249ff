import SshKeys.Key.Algorithm
import SshKeys.Key.Reader
import SshKeys.Wire.Field

/-!
# Public keys

A public key and its binary form: the name of the algorithm, then the fields of
the key.  Reading keeps integers and points as they are written, so writing a
key gives back the bytes it was read from, unless the name was an alias.
-/

namespace SshKeys

inductive PublicKey where
  | rsa (e n : Bytes)
  | dsa (p q g y : Bytes)
  | ecdsa (curve : NistCurve) (point : Bytes)
  | ed25519 (key : Bytes)
  | skEcdsa (point : Bytes) (application : String)
  | skEd25519 (key : Bytes) (application : String)
  | other (name : String) (body : Bytes)
  deriving DecidableEq, Repr

namespace PublicKey

def algorithm : PublicKey → Algorithm
  | rsa .. => .rsa
  | dsa .. => .dsa
  | ecdsa curve _ => .ecdsa curve
  | ed25519 _ => .ed25519
  | skEcdsa .. => .skEcdsa
  | skEd25519 .. => .skEd25519
  | other name _ => .other name

end PublicKey

namespace KeyReader

/-- The curve whose coordinates have `n` bytes. -/
def curveOfSize? (n : Nat) : Option NistCurve :=
  NistCurve.all.find? (·.fieldSize = n)

/-- The curve of a point in compressed or uncompressed form, by its first byte and its length.
The coordinates are not checked. -/
def curveOfPoint : Bytes → Except KeyFault NistCurve
  | [] => .error .length
  | tag :: coordinates =>
    let n := coordinates.length
    if tag = 2 ∨ tag = 3 then
      match curveOfSize? n with
      | some c => .ok c
      | none => .error .length
    else if tag = 4 then
      match curveOfSize? (n / 2) with
      | some c => if n % 2 = 0 then .ok c else .error .point
      | none => .error .length
    else if tag = 0 ∨ tag = 5 then .error .algorithm
    else .error .point

/-- The curve named and a point of it. -/
def ecdsaPoint : KeyReader (NistCurve × Bytes) := do
  let curve ← name NistCurve.ofName?
  let point ← fieldWithin 133
  let own ← (curveOfPoint point : Except KeyFault NistCurve)
  if own = curve then pure (curve, point) else throw .algorithm

/-- Whether a point of P-256 has one of its written forms, infinity included. -/
def isP256Form : Bytes → Bool
  | [] => false
  | tag :: coordinates =>
    let n := coordinates.length
    tag = 0 && n = 0 || (tag = 2 || tag = 3 || tag = 5) && n = 32 || tag = 4 && n = 64

/-- The public part of a P-256 key in a security token: curve, point and application. -/
def skEcdsaPoint : KeyReader (Bytes × String) := do
  let curve ← name NistCurve.ofName?
  if curve ≠ .p256 then throw .crypto
  let point ← fieldWithin 65
  if isP256Form point then pure (point, ← text) else throw .point

/-- A public key of a known algorithm. -/
def publicKeyOf : Algorithm → KeyReader PublicKey
  | .rsa | .rsaSha256 | .rsaSha512 => do
    let e ← integer
    let n ← integer
    pure (.rsa e n)
  | .dsa => do
    let p ← integer
    let q ← integer
    let g ← integer
    let y ← integer
    pure (.dsa p q g y)
  | .ecdsa curve => do
    let (own, point) ← ecdsaPoint
    if own = curve then pure (.ecdsa curve point) else throw .algorithm
  | .ed25519 => do
    pure (.ed25519 (← nested (take 32)))
  | .skEcdsa => do
    let (point, application) ← skEcdsaPoint
    pure (.skEcdsa point application)
  | .skEd25519 => do
    let key ← nested (take 32)
    pure (.skEd25519 key (← text))
  | .other name => do
    pure (.other name (← field))

def publicKey : KeyReader PublicKey := do
  publicKeyOf (← name Algorithm.ofName?)

end KeyReader

namespace PublicKey

open SshKeys.Field (putString putText)

/-- The fields after the name. -/
def fields : PublicKey → Bytes
  | rsa e n => putString e ++ putString n
  | dsa p q g y => putString p ++ putString q ++ putString g ++ putString y
  | ecdsa curve point => putText curve.name ++ putString point
  | ed25519 key => putString key
  | skEcdsa point application =>
    putText NistCurve.p256.name ++ putString point ++ putText application
  | skEd25519 key application => putString key ++ putText application
  | other _ body => putString body

/-- The binary form. -/
def blob (k : PublicKey) : Bytes :=
  putText k.algorithm.name ++ k.fields

/-- Reads a binary form; bytes after the key are left over. -/
def read (b : Bytes) : Except KeyFault (PublicKey × Bytes) := do
  let (key, rest) ← KeyReader.publicKey.run (.ofBytes b)
  pure (key, rest.bytes)

/-- The key a binary form begins with. -/
def ofBlob (b : Bytes) : Except KeyFault PublicKey := do
  pure (← read b).1

end PublicKey

end SshKeys
