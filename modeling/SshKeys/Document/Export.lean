import SshKeys.Document.Pkcs8
import SshKeys.Failure
import SshKeys.Pem

/-!
# Private keys as PEM files

RSA keys are written as PKCS#1 and ECDSA keys as SEC 1, or either as PKCS#8;
Ed25519 keys have only the latter form.  Nothing is encrypted.
-/

namespace SshKeys.KeyPair

/-- The numbers of an RSA pair, and the inverse of the second factor modulo the first. -/
def exportNumbers (k : RsaPair) : Except Failure (Rsa.Numbers × Nat) :=
  match k.numbers? with
  | none => .error (.encodingFailure (.key .crypto))
  | some numbers =>
    match Rsa.check numbers with
    | .error f => .error (.encodingFailure (.rsa f))
    | .ok () =>
      match numbers.qinv? with
      | none => .error (.encodingFailure .noInverse)
      | some qinv => .ok (numbers, qinv)

def exportScalar (curve : NistCurve) (scalar : Bytes) : Except Failure Nat :=
  let d := Bytes.toNat scalar
  if curve.IsScalar d then .ok d else .error (.encodingFailure .scalar)

/-- The file of a key as PKCS#8. -/
def toPkcs8 (k : KeyPair) : Except Failure String :=
  match k with
  | rsa pair => do
    let (numbers, qinv) ← exportNumbers pair
    pure (Pem.encode Pkcs8.label (Pkcs8.ofRsa numbers qinv))
  | ecdsa curve _ scalar => do
    let d ← exportScalar curve scalar
    pure (Pem.encode Pkcs8.label (Pkcs8.ofScalar curve d))
  | ed25519 _ seed => .ok (Pem.encode Pkcs8.label (Pkcs8.ofSeed seed))
  | dsa _ | skEcdsa .. | skEd25519 .. | other .. =>
    .error (.unsupportedAlgorithm s!"экспорт {k.algorithm.name} в PEM/PKCS#8")

/-- The file of a key in the format of its family. -/
def toPem (k : KeyPair) : Except Failure String :=
  match k with
  | rsa pair => do
    let (numbers, qinv) ← exportNumbers pair
    pure (Pem.encode Pkcs1.label (Pkcs1.write numbers qinv))
  | ecdsa curve _ scalar => do
    let d ← exportScalar curve scalar
    pure (Pem.encode Sec1.label (Sec1.write curve d))
  | _ => k.toPkcs8

end SshKeys.KeyPair
