import SshKeys.Choice
import SshKeys.Detection
import SshKeys.Document.Pbes2
import SshKeys.Document.Pkcs8
import SshKeys.Key.Private
import SshKeys.Pem

/-!
# Private keys from PEM files

A file is taken for PKCS#8, PKCS#1 or SEC 1 by the markers in it, and its
document tried for each family of keys in turn.  No comment comes with a key.
-/

namespace SshKeys

namespace KeyPair

def ofRsa (k : Rsa.Numbers) : Except Failure KeyPair :=
  match RsaPair.ofNumbers? k with
  | some pair => .ok (.rsa pair)
  | none => .error (.invalidInput (.rsa .crypto))

/-- The key of the first curve a scalar is found for. -/
def ofScalarOn? (scalar? : NistCurve → Option Nat) : Option KeyPair :=
  NistCurve.all.findSome? fun c => (scalar? c).map (ofScalar c)

/-- The key of a document of any algorithm. -/
def ofPkcs8 (k : Pkcs8) : Except Failure KeyPair :=
  match k.seed? with
  | some seed => .ok (ofSeed seed)
  | none =>
    match k.rsa? with
    | some numbers => ofRsa numbers
    | none =>
      match ofScalarOn? k.scalar? with
      | some pair => .ok pair
      | none => .error (.unsupportedAlgorithm "алгоритм ключа PKCS#8 не поддерживается")

end KeyPair

namespace PemFile

def rsaMarker : String := "BEGIN RSA PRIVATE KEY"

def ecMarker : String := "BEGIN EC PRIVATE KEY"

def dsaMarker : String := "BEGIN DSA PRIVATE KEY"

/-- The document of an encrypted file.  What is wrong with the envelope shows without the
passphrase; all that comes after counts as a wrong passphrase. -/
def decrypted (text : String) (passphrase : Bytes) : Except Failure Pkcs8 :=
  match Pem.document Envelope.label Envelope.read? text with
  | .error f => .error (.invalidInput (.pkcs8 f))
  | .ok envelope =>
    match envelope.decrypt? passphrase >>= Pkcs8.read? with
    | none => .error .decryptionFailed
    | some k => .ok k

/-- The document of a PKCS#8 file. -/
def pkcs8 (text : String) (passphrase : Option String) : Except Failure Pkcs8 :=
  if Text.contains text encryptedPkcs8Marker then
    match passphrase with
    | none => .error .passphraseRequired
    | some passphrase => decrypted text (Bytes.ofString passphrase)
  else
    match Pem.document Pkcs8.label Pkcs8.read? text with
    | .error f => .error (.invalidInput (.pkcs8 f))
    | .ok k => .ok k

/-- The key of a file in one of the formats of before PKCS#8. -/
def traditional (text : String) (passphrase : Option String) : Except Failure KeyPair :=
  if Text.contains text legacyEncryptedMarker then
    match passphrase with
    | none => .error .passphraseRequired
    | some _ =>
      .error (.unsupportedAlgorithm "зашифрованный PEM в формате OpenSSL не поддерживается")
  else if Text.contains text rsaMarker then
    match Pem.document Pkcs1.label Pkcs1.read? text with
    | .error f => .error (.invalidInput (.pkcs1 f))
    | .ok k => KeyPair.ofRsa k
  else if Text.contains text ecMarker then
    let document := Pem.decode? Sec1.label text >>= Sec1.read?
    match document >>= fun s => KeyPair.ofScalarOn? s.scalarOn? with
    | none => .error (.unsupportedAlgorithm "кривая EC не поддерживается")
    | some pair => .ok pair
  else if Text.contains text dsaMarker then .error (.unsupportedAlgorithm "DSA в формате PEM")
  else .error (.invalidInput .unrecognized)

/-- The key pair of a file that is no container. -/
def keyPair (format : KeyFormat) (text : String) (passphrase : Option String) :
    Except Failure KeyPair :=
  match format with
  | .openssh => .error (.invalidInput .notPem)
  | .pkcs8 => do KeyPair.ofPkcs8 (← pkcs8 text passphrase)
  | .pem => traditional text passphrase

/-- The private key of a file that is no container. -/
def privateKey (format : KeyFormat) (text : String) (passphrase : Option String) :
    Except Failure PrivateKey := do
  pure ⟨← keyPair format text passphrase, "", none⟩

end PemFile

end SshKeys
