import SshKeys.Container.Section
import SshKeys.Key.Line

/-!
# Private keys in memory

A key pair with its comment, of a family that reports can describe.  A key that
was read from a container by the general reader also keeps the check number of
that container.
-/

namespace SshKeys

structure PrivateKey where
  pair : KeyPair
  comment : String
  /-- The check number of the container the key came from, if it is kept. -/
  check : Option UInt32 := none
  deriving DecidableEq

namespace PrivateKey

/-- Accepts a key of a family that reports can describe. -/
def checked (k : PrivateKey) : Except Failure PrivateKey := do
  let _ ← k.pair.publicKey.keyType
  pure k

/-- A key pair with a comment, as a key of its own. -/
def ofPair (pair : KeyPair) (comment : String) : Except Failure PrivateKey :=
  checked ⟨pair, comment, none⟩

def publicKey (k : PrivateKey) : PublicKey :=
  k.pair.publicKey

def withComment (k : PrivateKey) (comment : String) : PrivateKey :=
  { k with comment := comment }

def info (k : PrivateKey) : Except Failure PublicKeyInfo :=
  k.publicKey.info k.comment

/-- The line of the public key with the comment of the key. -/
def line (k : PrivateKey) : String :=
  k.publicKey.line k.comment

/-- A container in the clear.  Its check number is the one kept, or follows from the key. -/
def toContainer (k : PrivateKey) : String :=
  let check := k.check.getD k.pair.checkNumber
  let block := CipherKind.none.profile.blockSize
  Armor.wrap (ContainerHeader.payload
    ⟨CipherKind.none.name, KdfParameters.noneName, none, k.publicKey.blob,
      Section.build check k.pair.blob k.comment block, []⟩)

/-- Refuses a key whose container cannot declare the lengths of its fields. -/
def checkContainer (k : PrivateKey) : Except Failure Unit :=
  let plain := Section.length k.pair.blob.length k.comment.utf8ByteSize
    CipherKind.none.profile.blockSize
  if Field.lengthLimit ≤ k.publicKey.blob.length ∨ Field.lengthLimit ≤ plain then
    .error (.encodingFailure (.key .overflow))
  else .ok ()

/-- A diagnostic line that shows nothing of the private part. -/
def describe (k : PrivateKey) : String :=
  "KeyHandle \x7b algorithm: " ++ Text.quoted k.pair.algorithm.name ++ ", comment: "
    ++ Text.quoted k.comment ++ ", .. \x7d"

end PrivateKey

end SshKeys
